import StyleDocs.Proofs.Reference.Json
import StyleDocs.Proofs.Reference.Values

/-!
# Answers of the published reference

From the documents to the answers: the documents are read, those that say nothing are passed over,
the records are put together, and the reference is written as JSON and read again. Each query on the
result answers from one document, the last one with the property key of the name asked for that says
anything; what the other documents of the property say is not mixed in.
-/

namespace StyleDocs

/-- Values in lower case, each in the place where it is first named and with the description that it
is last given. -/
def foldedValues (pairs : List (Text × Text)) : List (Text × Text) :=
  (pairs.map fun pair => Text.lower pair.1).eraseDups.filterMap fun value =>
    (pairs.findRev? fun pair => Text.lower pair.1 = value).map fun pair => (value, pair.2)

/-- The published values of a record are its values folded. -/
theorem values_ofRecord (record : PropertyRecord) :
    (Entry.ofRecord record).values = foldedValues record.values.pairs := by
  have hlookup : ∀ value, ((ValueList.ofPairs (record.values.pairs.map fun pair =>
        (Text.lower pair.1, pair.2))).get? value).map (fun description => (value, description)) =
      (record.values.pairs.findRev? fun pair => Text.lower pair.1 = value).map
        fun pair => (value, pair.2) := by
    intro value
    change (ValueList.describe value (Entry.ofRecord record).values).map _ = _
    rw [Reference.describe_ofRecord, Option.map_map]
    rfl
  rw [Entry.ofRecord, ValueList.pairs_eq_filterMap, ValueList.map_fst_ofPairs, List.map_map]
  simp only [hlookup]
  rfl

namespace Reference

variable (conv : Conventions) (types : TypeCatalog) (properties : PropertyCatalog)

/-- The records of the documents that say something, under the names of the documents. -/
def recordsOf (docs : List (Text × Text)) : List (Text × PropertyRecord) :=
  docs.filterMap fun doc =>
    let record := Document.record conv types properties doc.2
    if record.isEmpty then none else some (doc.1, record)

/-- The last document with the property key of a name that says anything. -/
def lastTelling? (docs : List (Text × Text)) (name : Text) : Option (Text × Text) :=
  docs.findRev? fun doc => Key.property doc.1 = Key.property name &&
    !(Document.record conv types properties doc.2).isEmpty

/-- The entry of a property is made from the last document of the property that says anything. -/
theorem entry?_build_recordsOf (docs : List (Text × Text)) (name : Text) :
    Reference.entry? (build conv types properties (recordsOf conv types properties docs)).1 name =
      (lastTelling? conv types properties docs name).map fun doc =>
        Entry.ofRecord (Document.record conv types properties doc.2) := by
  have htelling : ∀ doc : Text × Text,
      (let record := Document.record conv types properties doc.2
        if record.isEmpty then none else some (doc.1, record)).any
          (fun r => decide (Key.property r.1 = Key.property name)) =
        (decide (Key.property doc.1 = Key.property name) &&
          !(Document.record conv types properties doc.2).isEmpty) := by
    intro doc
    dsimp only
    split
    · next h => simp [h]
    · next h => simp [h]
  rw [entry?_build, recordsOf, findRev?_filterMap]
  simp only [htelling]
  rw [← lastTelling?]
  cases hlast : lastTelling? conv types properties docs name with
  | none => rfl
  | some doc =>
    have htold : (Document.record conv types properties doc.2).isEmpty = false := by
      simpa using And.right (Bool.and_eq_true_iff.1 (findRev?_eq_some_iff.1 hlast).1)
    simp [htold]

/-- The reference of some documents is read back from its JSON text, and it answers every query for
a property from the last of the documents with the property key that says anything: with the
grammar, the examples, the related properties and the folded values of this one document. If there
is no such document, it answers with nothing. -/
theorem answers_of_last_document (docs : List (Text × Text)) :
    ∃ index, ofJson? (build conv types properties
        (recordsOf conv types properties docs)).1.toJson = some index ∧
      ∀ name, match lastTelling? conv types properties docs name with
        | some doc =>
          let record := Document.record conv types properties doc.2
          index.grammar name = record.grammar ∧
            index.cssExample name = record.cssExample ∧
            index.secondExample name = record.secondExample ∧
            index.seeAlso name = record.seeAlso ∧
            index.values name = foldedValues record.values.pairs
        | none =>
          index.grammar name = none ∧
            index.cssExample name = none ∧
            index.secondExample name = none ∧
            index.seeAlso name = [] ∧
            index.values name = [] := by
  refine ⟨_, by rw [ofJson?, parse_toJson, Option.bind_some, Json.reference?_reread], ?_⟩
  intro name
  have hentry := entry?_build_recordsOf conv types properties docs name
  cases hlast : lastTelling? conv types properties docs name with
  | none =>
    rw [hlast, Option.map_none] at hentry
    simp [grammar, cssExample, secondExample, seeAlso, values, hentry]
  | some doc =>
    rw [hlast, Option.map_some] at hentry
    simp only [grammar, cssExample, secondExample, seeAlso, values, hentry, Option.bind_some]
    exact ⟨rfl, rfl, rfl, rfl, values_ofRecord _⟩

end Reference

end StyleDocs
