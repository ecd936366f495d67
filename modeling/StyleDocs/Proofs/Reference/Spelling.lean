import StyleDocs.Proofs.Key.Spelling
import StyleDocs.Reference

/-!
# Queries in any spelling

A query looks its name up under a property key or a file key, and a value under its own key. So the
answers do not depend on how a name or a value is spelled, for every reference and not only for
those that are put together from documents.
-/

namespace StyleDocs.Reference

variable (ref : Reference) {a b : Text}

theorem entry?_eq_of_sameName (h : Key.SameName a b) :
    Reference.entry? ref a = Reference.entry? ref b := by
  unfold Reference.entry?
  rw [Key.property_eq_of_sameName h]

theorem propertyFile?_eq_of_sameName (h : Key.SameName a b) :
    ref.propertyFile? a = ref.propertyFile? b := by
  rw [propertyFile?, propertyFile?, Key.file_eq_of_sameName h]

/-- Every query answers alike for all spellings of a name and, where it takes one, of a value. -/
theorem answers_eq_of_sameName {v w : Text} (hname : Key.SameName a b)
    (hvalue : Key.SameValue v w) :
    ref.describe a v = ref.describe b w ∧
      ref.values a = ref.values b ∧
      ref.grammar a = ref.grammar b ∧
      ref.cssExample a = ref.cssExample b ∧
      ref.secondExample a = ref.secondExample b ∧
      ref.seeAlso a = ref.seeAlso b ∧
      ref.typeUrl? a = ref.typeUrl? b ∧
      ref.propertyFile? a = ref.propertyFile? b ∧
      ref.hasProperty a = ref.hasProperty b ∧
      ref.propertyUrl? a = ref.propertyUrl? b := by
  have hentry := ref.entry?_eq_of_sameName hname
  have hfile := ref.propertyFile?_eq_of_sameName hname
  refine ⟨?_, ?_, ?_, ?_, ?_, ?_, ?_, hfile, ?_, ?_⟩
  · rw [describe, describe, hentry, Key.value_eq_of_sameValue hvalue]
  · rw [values, values, hentry]
  · rw [grammar, grammar, hentry]
  · rw [cssExample, cssExample, hentry]
  · rw [secondExample, secondExample, hentry]
  · rw [seeAlso, seeAlso, hentry]
  · rw [typeUrl?, typeUrl?, Key.property_eq_of_sameName hname]
  · rw [hasProperty, hasProperty, hfile]
  · rw [propertyUrl?, propertyUrl?, hfile]

/-- A sigma before an underscore and before a hyphen is the last of its word in both spellings. -/
theorem answers_eq_of_sameName_sigma :
    let ref : Reference :=
      { properties := .ofList [("οδος-grid".toList, { values := [("rows".toList, "x".toList)] })] }
    Key.SameName " ΟΔΟΣ_Grid".toList "ΟΔΟΣ-gRID\t".toList ∧
      Key.SameValue "ROWS ".toList "Rows".toList ∧
      ref.describe " ΟΔΟΣ_Grid".toList "ROWS ".toList =
        ref.describe "ΟΔΟΣ-gRID\t".toList "Rows".toList ∧
      ref.describe "ΟΔΟΣ-gRID\t".toList "Rows".toList = some "x".toList := by
  intro ref
  have hname : Key.SameName " ΟΔΟΣ_Grid".toList "ΟΔΟΣ-gRID\t".toList := by
    decide
  have hvalue : Key.SameValue "ROWS ".toList "Rows".toList := by decide
  exact ⟨hname, hvalue, (ref.answers_eq_of_sameName hname hvalue).1, by decide +kernel⟩

end StyleDocs.Reference
