import Mathlib.Data.List.Forall2
import StyleDocs.Key
import StyleDocs.Proofs.Text.LetterCase

/-!
# Spellings of a name

A name may be spelled in any ASCII case, with hyphens or underscores and with white space around it.
Trimming, lower case and the choice of the separator do not disturb one another, not even beside a
sigma, whose form depends on its neighbours; so all spellings of a name have one property key and
one file key. A value keeps its separators, and its key does not depend on ASCII case and white
space around it.
-/

namespace StyleDocs.Key

open Text

/-- Characters that count as one in a name: they differ in the case of an ASCII letter at most, or
each is a hyphen or an underscore. -/
def SameLetter (c d : Char) : Prop :=
  c.toLower = d.toLower ∨ (c = '-' ∨ c = '_') ∧ (d = '-' ∨ d = '_')

instance (c d : Char) : Decidable (SameLetter c d) :=
  inferInstanceAs (Decidable (c.toLower = d.toLower ∨ (c = '-' ∨ c = '_') ∧ (d = '-' ∨ d = '_')))

/-- Names that differ only in the case of ASCII letters, in hyphens for underscores and in the white
space around them. -/
def SameName (a b : Text) : Prop := List.Forall₂ SameLetter (strip a) (strip b)

instance (a b : Text) : Decidable (SameName a b) :=
  decidable_of_iff ((strip a).length = (strip b).length ∧
      ∀ pair ∈ (strip a).zip (strip b), SameLetter pair.1 pair.2) <| by
    rw [SameName, List.forall₂_iff_zip, Prod.forall]

/-- Values that differ only in the case of ASCII letters and in the white space around them. -/
def SameValue (a b : Text) : Prop := sameIgnoringCase (strip a) (strip b) = true

instance (a b : Text) : Decidable (SameValue a b) :=
  inferInstanceAs (Decidable (sameIgnoringCase (strip a) (strip b) = true))

/-- A character in the spelling that stands for all: a small letter, and the hyphen for the
underscore. -/
def letter (c : Char) : Char := if c.toLower = '_' then '-' else c.toLower

theorem letter_eq_of_sameLetter {c d : Char} (h : SameLetter c d) : letter c = letter d := by
  have hseparator : ∀ c : Char, c = '-' ∨ c = '_' → letter c = '-' := by
    rintro c (rfl | rfl) <;> decide
  rcases h with h | ⟨hc, hd⟩
  · rw [letter, h, letter]
  · rw [hseparator c hc, hseparator d hd]

/-- The property key of a name is the lower-case form of the spelling that stands for all. -/
theorem property_eq_lower_letters (name : Text) :
    property name = lower ((strip name).map letter) := by
  have hletters : (strip name).map letter =
      replaceChar '_' '-' ((strip name).map Char.toLower) := by
    rw [replaceChar, List.map_map]
    rfl
  rw [hletters, lower_hyphens, lower_map_toLower, property, value]

/-- The file key of a name is its property key with underscores. -/
theorem file_eq_property (name : Text) : file name = replaceChar '-' '_' (property name) := by
  rw [property, replaceChar_replaceChar, file]

/-- Spellings of a name have one property key. -/
theorem property_eq_of_sameName {a b : Text} (h : SameName a b) : property a = property b := by
  have hletters : (strip a).map letter = (strip b).map letter := by
    unfold SameName at h
    generalize strip a = t at h
    generalize strip b = u at h
    induction h with
    | nil => rfl
    | cons hletter _ ih => rw [List.map_cons, List.map_cons, letter_eq_of_sameLetter hletter, ih]
  rw [property_eq_lower_letters, hletters, ← property_eq_lower_letters]

/-- Spellings of a name have one file key. -/
theorem file_eq_of_sameName {a b : Text} (h : SameName a b) : file a = file b := by
  rw [file_eq_property, property_eq_of_sameName h, ← file_eq_property]

/-- Spellings of a value have one key. -/
theorem value_eq_of_sameValue {a b : Text} (h : SameValue a b) : value a = value b := by
  have hletters : (strip a).map Char.toLower = (strip b).map Char.toLower := beq_iff_eq.1 h
  rw [value, ← lower_map_toLower, hletters, lower_map_toLower, ← value]

end StyleDocs.Key
