import StyleDocs.Catalog
import StyleDocs.Key
import StyleDocs.Proofs.Text.Strip

/-!
# Agreement of keys

A document is filed under the lower-case form of its name, asked for by a file key and described
under a property key. The lower-case form is the file key of the name only if the name has no
hyphen; but whenever a document is found by a file key, its name and the name asked for have one
property key. For names over the ASCII letters, digits, hyphens and underscores, folding the case
and choosing the hyphen may be done in either order.
-/

namespace StyleDocs.Key

/-- A trimmed name is filed under its own file key exactly when it has no hyphen. -/
theorem file_eq_lower_iff {name : Text} (h : Text.strip name = name) :
    file name = Text.lower name ↔ '-' ∉ name := by
  rw [file, value, h, Text.replaceChar_eq_self_iff (by decide), Text.hyphen_mem_lower_iff]

theorem hasBlankEnd_file (name : Text) : Text.hasBlankEnd (file name) = false := by
  rw [file, Text.hasBlankEnd_replaceChar (by decide) (by decide), value, Text.hasBlankEnd_lower,
    Text.hasBlankEnd_strip]

/-- A name that is found by the file key of another shares its property key. -/
theorem property_eq_of_lower_eq_file {name asked : Text} (h : Text.lower name = file asked) :
    property name = property asked := by
  have hends : Text.hasBlankEnd name = false := by
    rw [← Text.hasBlankEnd_lower, h, hasBlankEnd_file]
  rw [property, value, Text.strip_eq_self hends, h, file, Text.replaceChar_replaceChar, ← property]

theorem typeName_typeName (name : Text) : typeName (typeName name) = typeName name := by
  rw [typeName, typeName, Text.replaceChar_eq_self_iff (by decide)]
  intro hmem
  obtain ⟨c, -, hc⟩ := List.mem_map.1 hmem
  split at hc
  · exact absurd hc (by decide)
  · next hne => exact hne hc

theorem toNat_lt_of_mem_typeName {name : Text} (hascii : ∀ c ∈ name, c.toNat < 128) :
    ∀ c ∈ typeName name, c.toNat < 128 := by
  intro d hd
  obtain ⟨c, hc, rfl⟩ := List.mem_map.1 hd
  split
  · decide
  · exact hascii c hc

/-- A type name in ASCII is its own lower-case form exactly when it has no capital letter. -/
theorem lower_typeName_eq_iff {name : Text} (hascii : ∀ c ∈ name, c.toNat < 128) :
    Text.lower (typeName name) = typeName name ↔ ∀ c ∈ name, c.isUpper = false := by
  have hchar : ∀ c ∈ name, ((if c = '_' then '-' else c).toLower = (if c = '_' then '-' else c) ↔
      c.isUpper = false) := fun c hc =>
    Text.forall_ascii (P := fun c => (if c = '_' then '-' else c).toLower =
      (if c = '_' then '-' else c) ↔ c.isUpper = false) (by decide) (hascii c hc)
  rw [Text.lower_ascii (toNat_lt_of_mem_typeName hascii), typeName, Text.replaceChar, List.map_map,
    List.map_inj_left]
  exact forall₂_congr hchar

/-- The key of a name over visible ASCII characters is the lower-case form of the type name. -/
theorem property_eq_lower_typeName {name : Text} (hascii : ∀ c ∈ name, c.toNat < 128)
    (hvisible : ∀ c ∈ name, Text.isBlank c = false) :
    property name = Text.lower (typeName name) := by
  have hends : Text.hasBlankEnd name = false := by
    cases name with
    | nil => rfl
    | cons c name =>
      have hlast := List.getLast?_eq_some_getLast (List.cons_ne_nil c name)
      simp [Text.hasBlankEnd, hlast, hvisible]
  rw [property, value, Text.strip_eq_self hends, Text.lower_ascii hascii,
    Text.lower_ascii (toNat_lt_of_mem_typeName hascii)]
  simp only [typeName, Text.replaceChar, List.map_map]
  refine List.map_congr_left fun c hc => ?_
  exact Text.forall_ascii (P := fun c => (if c.toLower = '_' then '-' else c.toLower) =
    (if c = '_' then '-' else c).toLower) (by decide) (hascii c hc)

end StyleDocs.Key
