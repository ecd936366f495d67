import StyleDocs.Proofs.Key.Spelling
import StyleDocs.Proofs.Markdown.ValueRow
import StyleDocs.Proofs.Reference.Answers

/-!
# Listing and lookup of values

The values of an entry are listed by one query and looked up by another, which folds the value asked
for. The two agree because every listed value is its own key: it is written in lower case, and since
a row of a document names a value by one word, there is no white space around it. So a value is
found under each of its spellings, and whatever is found is listed under its key.
-/

namespace StyleDocs

open Text

/-- The lower-case form of a word is its own key. -/
theorem Key.value_lower {word : Text} (h : hasBlankEnd word = false) :
    Key.value (lower word) = lower word := by
  rw [value, strip_eq_self (by rw [hasBlankEnd_lower, h]), lower_lower]

/-- What makes listing and lookup of an entry agree. -/
structure Entry.Folded (entry : Entry) : Prop where
  /-- No value is listed twice. -/
  distinct : (entry.values.map Prod.fst).Nodup
  /-- Every listed value is its own key. -/
  fixed : ∀ pair ∈ entry.values, Key.value pair.1 = pair.1

/-- An entry made from a record is folded if the values of the record are words. -/
theorem Entry.folded_ofRecord {record : PropertyRecord}
    (h : ∀ pair ∈ record.values.pairs, hasBlankEnd pair.1 = false) :
    (Entry.ofRecord record).Folded := by
  refine ⟨ValueList.distinct _, fun pair hpair => ?_⟩
  obtain ⟨source, hsource, rfl⟩ := List.mem_map.1 (ValueList.mem_of_mem_ofPairs hpair)
  exact Key.value_lower (h source hsource)

/-- The values of the record of a document are words. -/
theorem Document.hasBlankEnd_of_mem_values (conv : Conventions) (types : TypeCatalog)
    (properties : PropertyCatalog) (doc : Text) :
    ∀ pair ∈ (Document.record conv types properties doc).values.pairs,
      hasBlankEnd pair.1 = false := fun _ hpair =>
  hasBlankEnd_of_forall (Markdown.not_isBlank_of_mem_rows (ValueList.mem_of_mem_ofPairs hpair))

namespace Entry.Folded

variable {entry : Entry} {value description : Text}

/-- In a folded entry looking up the key of a value answers with what is listed under it. -/
theorem describe_eq_some_iff (h : entry.Folded) :
    ValueList.describe value entry.values = some description ↔
      (value, description) ∈ entry.values := by
  have hlist : (value, description) ∈ (⟨entry.values, h.distinct⟩ : ValueList).pairs ↔ _ :=
    ValueList.mem_pairs_iff
  exact hlist.symm

/-- A listed value is the key of each of its spellings. -/
theorem key_of_sameValue (h : entry.Folded) (hmem : (value, description) ∈ entry.values)
    {spelling : Text} (hspelling : Key.SameValue spelling value) : Key.value spelling = value :=
  (Key.value_eq_of_sameValue hspelling).trans (h.fixed _ hmem)

end Entry.Folded

namespace Reference

variable (conv : Conventions) (types : TypeCatalog) (properties : PropertyCatalog)

/-- Every entry that is made from documents is folded. -/
theorem folded_of_entry? {docs : List (Text × Text)} {name : Text} {entry : Entry}
    (h : Reference.entry? (build conv types properties (recordsOf conv types properties docs)).1
      name = some entry) : entry.Folded := by
  rw [entry?_build_recordsOf] at h
  obtain ⟨doc, -, rfl⟩ := Option.map_eq_some_iff.1 h
  exact Entry.folded_ofRecord (Document.hasBlankEnd_of_mem_values conv types properties doc.2)

/-- The values of a property are listed once each, a listed value is found with its description
under each of its spellings, and what is found is listed under the key of the value asked for. -/
theorem lookup_agrees_with_listing (docs : List (Text × Text)) (name : Text) :
    let ref := (build conv types properties (recordsOf conv types properties docs)).1
    ((ref.values name).map Prod.fst).Nodup ∧
      (∀ value description, (value, description) ∈ ref.values name →
        ∀ spelling, Key.SameValue spelling value →
          ref.describe name spelling = some description) ∧
      ∀ spelling description, ref.describe name spelling = some description →
        (Key.value spelling, description) ∈ ref.values name := by
  intro ref
  cases hentry : Reference.entry? ref name with
  | none =>
    simp [values, describe, hentry]
  | some entry =>
    have hfolded : entry.Folded := folded_of_entry? conv types properties hentry
    have hvalues : ref.values name = entry.values := by rw [values, hentry]
    have hdescribe : ∀ spelling, ref.describe name spelling =
        ValueList.describe (Key.value spelling) entry.values := fun spelling => by
      rw [describe, hentry, Option.bind_some]
    rw [hvalues]
    refine ⟨hfolded.distinct, fun value description hmem spelling hspelling => ?_,
      fun spelling description hfound => ?_⟩
    · rw [hdescribe, hfolded.key_of_sameValue hmem hspelling]
      exact hfolded.describe_eq_some_iff.2 hmem
    · rw [hdescribe] at hfound
      exact hfolded.describe_eq_some_iff.1 hfound

/-- Of two rows with spellings of one value one pair is listed, and it is found under a third
spelling. -/
theorem lookup_agrees_with_listing_auto :
    let docs := [("tint".toList, "Auto | one\n`AUTO` | two\n".toList)]
    let ref := (build {} .empty .empty (recordsOf {} .empty .empty docs)).1
    ref.values "tint".toList = [("auto".toList, "two".toList)] ∧
      Key.SameValue " aUTO\t".toList "auto".toList ∧
      ref.describe "tint".toList " aUTO\t".toList = some "two".toList := by
  intro docs ref
  have hvalues : ref.values "tint".toList = [("auto".toList, "two".toList)] := by decide +kernel
  have hspelling : Key.SameValue " aUTO\t".toList "auto".toList := by decide
  obtain ⟨-, hfound, -⟩ := lookup_agrees_with_listing {} .empty .empty docs "tint".toList
  exact ⟨hvalues, hspelling, hfound _ _ (hvalues ▸ List.mem_singleton.2 rfl) _ hspelling⟩

end Reference

end StyleDocs
