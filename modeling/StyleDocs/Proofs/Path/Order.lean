import StyleDocs.Path

/-!
# The order of paths

Paths are ordered by their components, and two paths that stand at one place of the order have the
same components. A sorted list of paths is therefore determined by the paths in it up to the
spelling of paths with the same components.
-/

namespace StyleDocs.Path

theorem Component.key_injective {a b : Component} (h : a.key = b.key) : a = b := by
  cases a <;> cases b <;> simp [Component.key] at h <;> try rfl
  exact congrArg Component.name ((List.map_inj_right fun _ _ => Char.toNat_inj.1).1 h)

/-- Paths at one place of the order have the same components. -/
theorem components_eq_of_key_eq {a b : Text} (h : key a = key b) : components a = components b :=
  (List.map_inj_right fun _ _ => Component.key_injective).1 h

theorem atMost_iff {a b : Text} : atMost a b = true ↔ ¬ key b < key a := by
  rw [atMost, Bool.not_eq_true', decide_eq_false_iff_not]

theorem atMost_refl (a : Text) : atMost a a = true := atMost_iff.2 (List.lt_irrefl _)

theorem atMost_total (a b : Text) : (atMost a b || atMost b a) = true := by
  rw [Bool.or_eq_true, atMost_iff, atMost_iff]
  exact (List.le_total (key a) (key b)).imp List.not_lt.2 List.not_lt.2

theorem atMost_trans {a b c : Text} (hab : atMost a b = true) (hbc : atMost b c = true) :
    atMost a c = true := by
  rw [atMost_iff] at hab hbc ⊢
  exact List.not_lt.2 (List.le_trans (List.not_lt.1 hab) (List.not_lt.1 hbc))

/-- Two paths of which neither comes behind the other have the same components. -/
theorem components_eq_of_atMost {a b : Text} (hab : atMost a b = true) (hba : atMost b a = true) :
    components a = components b := by
  rw [atMost_iff] at hab hba
  exact components_eq_of_key_eq (List.le_antisymm (List.not_lt.1 hab) (List.not_lt.1 hba))

theorem Component.key_lt {a b : Text} (h : a < b) :
    (Component.name a).key < (Component.name b).key :=
  List.cons_lt_cons_iff.2 (Or.inr ⟨rfl, List.map_lt (fun _ _ hlt => hlt) h⟩)

section Names

variable {a b : Text} {front : List Component} {names names' : List Text}

theorem key_lt_of_names (ha : components a = front ++ names.map .name)
    (hb : components b = front ++ names'.map .name) (h : names < names') : key a < key b := by
  rw [key, key, ha, hb, List.map_append, List.map_append, List.map_map, List.map_map]
  exact List.append_left_lt (List.map_lt (fun _ _ => Component.key_lt) h)

/-- Behind the same components the order of paths is the order of the lists of their names. -/
theorem atMost_iff_of_names (ha : components a = front ++ names.map .name)
    (hb : components b = front ++ names'.map .name) :
    atMost a b = true ↔ names = names' ∨ names < names' := by
  rw [atMost_iff]
  constructor
  · intro h
    by_cases hlt : names < names'
    · exact Or.inr hlt
    · have hnot : ¬ names' < names := fun hbehind => h (key_lt_of_names hb ha hbehind)
      exact Or.inl (List.le_antisymm (List.not_lt.1 hnot) (List.not_lt.1 hlt))
  · rintro (rfl | hlt) hkey
    · rw [key, key, ha, hb] at hkey
      exact List.lt_irrefl _ hkey
    · exact List.lt_asymm (key_lt_of_names ha hb hlt) hkey

end Names

theorem pairwise_sort (paths : List Text) :
    (sort paths).Pairwise fun a b => atMost a b = true :=
  @List.pairwise_mergeSort _ atMost (fun _ _ _ => atMost_trans) atMost_total paths

@[simp] theorem mem_sort {paths : List Text} {path : Text} : path ∈ sort paths ↔ path ∈ paths :=
  List.mem_mergeSort

end StyleDocs.Path
