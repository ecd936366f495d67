import StyleDocs.Document
import StyleDocs.Proofs.Reference.Tables
import StyleDocs.Proofs.ValueList

/-!
# Descriptions of values

The rows of a document are merged twice on their way to a query. Reading the document merges the
rows of one spelling, publishing the record merges the spellings that are the same in lower case.
Each merge keeps the place of the first and the description of the last, and the two together need
not keep the last row: the places of the first merge decide which spelling is last in the second.
-/

namespace StyleDocs.Reference

open Markdown

/-- The published values of a record describe a value as its last spelling in the record does. -/
theorem describe_ofRecord (record : PropertyRecord) (key : Text) :
    ValueList.describe key (Entry.ofRecord record).values =
      (record.values.pairs.findRev? fun e => Text.lower e.1 = key).map Prod.snd := by
  change (ValueList.ofPairs (record.values.pairs.map fun e => (Text.lower e.1, e.2))).get? key = _
  rw [ValueList.get?_ofPairs, List.findRev?_eq_find?_reverse, ← List.map_reverse, List.find?_map,
    List.findRev?_eq_find?_reverse, Option.map_map]
  rfl

/-- The rows of a document whose value is the one asked for, in order. -/
def rowsNaming (doc value : Text) : List (Text × Text) :=
  (rows doc).filter fun row => Text.lower row.1 = Key.value value

/-- The reference of one document alone describes a value as the last row does whose spelling of the
value is the last to appear, and it describes no value that no row names. The description is that of
the last row that names the value exactly when the two rows describe it alike. -/
theorem describe_document (conv : Conventions) (types : TypeCatalog)
    (properties : PropertyCatalog) (doc name value : Text) :
    let ref := (build conv types properties
      [(name, Document.record conv types properties doc)]).1
    (ref.describe name value = none ↔ rowsNaming doc value = []) ∧
      ref.describe name value = (ValueList.newest? (rowsNaming doc value)).map Prod.snd ∧
      (ref.describe name value = (rowsNaming doc value).getLast?.map Prod.snd ↔
        ∀ newest last, ValueList.newest? (rowsNaming doc value) = some newest →
          (rowsNaming doc value).getLast? = some last → newest.2 = last.2) := by
  intro ref
  have hentry : Reference.entry? ref name =
      some (Entry.ofRecord (Document.record conv types properties doc)) := by
    rw [entry?_build, List.findRev?_eq_find?_reverse]
    simp
  have hnewest : ref.describe name value =
      (ValueList.newest? (rowsNaming doc value)).map Prod.snd := by
    rw [describe, hentry, Option.bind_some, describe_ofRecord]
    change ((ValueList.ofPairs (rows doc)).pairs.findRev? fun e =>
      decide (Text.lower e.1 = Key.value value)).map Prod.snd = _
    rw [ValueList.findRev?_ofPairs fun v => decide (Text.lower v = Key.value value)]
    rfl
  refine ⟨?_, hnewest, ?_⟩
  · rw [hnewest, Option.map_eq_none_iff, ValueList.newest?_eq_none_iff]
  · rw [hnewest]
    cases hrow : ValueList.newest? (rowsNaming doc value) with
    | none =>
      rw [ValueList.newest?_eq_none_iff.1 hrow]
      simp
    | some newest =>
      have hne : rowsNaming doc value ≠ [] := by
        intro hnil
        rw [ValueList.newest?_eq_none_iff.2 hnil] at hrow
        contradiction
      rw [List.getLast?_eq_some_getLast hne]
      simp

/-- Of three rows that alternate between two spellings the second is found, not the last. -/
theorem alternating_spellings_lose_last :
    let doc := "a|1\nA|2\na|3\n".toList
    let ref := (build {} .empty .empty [("x".toList, Document.record {} .empty .empty doc)]).1
    rowsNaming doc "a".toList =
        [("a".toList, "1".toList), ("A".toList, "2".toList), ("a".toList, "3".toList)] ∧
      ref.describe "x".toList "a".toList = some "2".toList ∧
      ref.describe "x".toList "a".toList ≠
        (rowsNaming doc "a".toList).getLast?.map Prod.snd := by
  decide +kernel

end StyleDocs.Reference
