import StyleDocs.Proofs.ValueList
import StyleDocs.Reference

/-!
# Values in order of first appearance

Reading a document merges its values by their exact spelling, publishing the record merges them once
more by their lower-case form. Each merge keeps the order of first appearance, and the order behind
both is the one that a single merge of everything that was inserted would give: removing repeats
before folding takes away no first appearance.
-/

namespace StyleDocs

/-- The values of a record are published in the order in which their lower-case forms appear. -/
theorem Entry.map_fst_ofRecord (record : PropertyRecord) :
    (Entry.ofRecord record).values.map Prod.fst =
      ((record.values.pairs.map Prod.fst).map Text.lower).eraseDups := by
  rw [Entry.ofRecord, ValueList.map_fst_ofPairs, List.map_map, List.map_map]
  rfl

/-- Inserted values are listed once each in the order of their first insertion, each with the
description of its last; and a record of them publishes their lower-case forms once each in the
order in which these appear first among all insertions, with everything else as it is. -/
theorem firstSeen_ofRecord (inserted : List (Text × Text)) (record : PropertyRecord) :
    let values := ValueList.ofPairs inserted
    let entry := Entry.ofRecord { record with values := values }
    FirstSeen (inserted.map Prod.fst) (values.pairs.map Prod.fst) ∧
      (∀ value, values.get? value =
        (inserted.findRev? fun pair => pair.1 = value).map Prod.snd) ∧
      (∀ value description, (value, description) ∈ values.pairs ↔
        values.get? value = some description) ∧
      FirstSeen (inserted.map fun pair => Text.lower pair.1) (entry.values.map Prod.fst) ∧
      entry.grammar = record.grammar ∧
      entry.cssExample = record.cssExample ∧
      entry.secondExample = record.secondExample ∧
      entry.seeAlso = record.seeAlso := by
  intro values entry
  have hlisted : values.pairs.map Prod.fst = (inserted.map Prod.fst).eraseDups :=
    ValueList.map_fst_ofPairs inserted
  have hpublished : entry.values.map Prod.fst =
      (inserted.map fun pair => Text.lower pair.1).eraseDups := by
    change (Entry.ofRecord { record with values := values }).values.map Prod.fst = _
    rw [Entry.map_fst_ofRecord, hlisted, eraseDups_map_eraseDups, List.map_map]
    rfl
  refine ⟨?_, ValueList.get?_ofPairs inserted, fun _ _ => ValueList.mem_pairs_iff, ?_, rfl, rfl,
    rfl, rfl⟩
  · rw [hlisted]
    exact firstSeen_eraseDups _
  · rw [hpublished]
    exact firstSeen_eraseDups _

/-- A value that is spelled in two ways keeps the place of the first, whichever is inserted again. -/
example : (Entry.ofRecord { values := .ofPairs [("b".toList, []), ("A".toList, []),
    ("a".toList, []), ("b".toList, []), ("c".toList, [])] }).values.map Prod.fst =
      ["b".toList, "a".toList, "c".toList] := by decide

end StyleDocs
