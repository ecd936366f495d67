import Mathlib.Data.List.Basic
import Mathlib.Data.List.Induction
import StyleDocs.Proofs.Table
import StyleDocs.ValueList

/-!
# Values after insertions

Inserting values one after the other lists them in the order of their first appearance, each with
the description of its last. When such a list is searched from its end for one of several values, it
is therefore not the last insertion that is found but the last insertion of the value that is the
last to appear.
-/

namespace StyleDocs

/-- Behind other elements an element is a repeat if it is one of them. -/
theorem eraseDups_append_singleton {α : Type} [BEq α] [LawfulBEq α] (items : List α)
    (x : α) : (items ++ [x]).eraseDups =
      if x ∈ items then items.eraseDups else items.eraseDups ++ [x] := by
  rw [List.eraseDups_append]
  split
  · next hx => simp [List.removeAll, hx]
  · next hx => simp [List.removeAll, hx, List.eraseDups_cons]

/-- Removing repeats and selecting elements commute. -/
theorem filter_eraseDups {α : Type} [BEq α] [LawfulBEq α] (p : α → Bool)
    (items : List α) : items.eraseDups.filter p = (items.filter p).eraseDups := by
  induction items using List.reverseRecOn with
  | nil => rfl
  | append_singleton items x ih =>
    rw [List.eraseDups_append, List.filter_append, List.filter_append, List.eraseDups_append, ih]
    congr 1
    by_cases hx : x ∈ items <;> by_cases hp : p x = true <;> simp [List.removeAll, hx, hp]

/-- Of the images of some elements the repeats may be removed at once or after those of the
elements. -/
theorem eraseDups_map_eraseDups {α β : Type} [BEq α] [LawfulBEq α] [BEq β] [LawfulBEq β]
    (f : α → β) (items : List α) : (items.eraseDups.map f).eraseDups = (items.map f).eraseDups := by
  induction items using List.reverseRecOn with
  | nil => rfl
  | append_singleton items x ih =>
    rw [List.map_append, List.map_singleton, eraseDups_append_singleton, eraseDups_append_singleton]
    by_cases hx : x ∈ items
    · rw [if_pos hx, if_pos (List.mem_map_of_mem hx), ih]
    · have himage : f x ∈ items.eraseDups.map f ↔ f x ∈ items.map f := by
        simp [List.mem_eraseDups]
      rw [if_neg hx, List.map_append, List.map_singleton, eraseDups_append_singleton, ih]
      exact if_congr himage rfl rfl

/-- The elements of a list, each once and in the order in which they appear in it first. -/
structure FirstSeen {α : Type} [BEq α] (items firsts : List α) : Prop where
  /-- Nothing is lost and nothing is added. -/
  mem_iff : ∀ x, x ∈ firsts ↔ x ∈ items
  /-- What stands in front appears first, so nothing stands twice. -/
  ordered : firsts.Pairwise fun x y => items.idxOf x < items.idxOf y

/-- Removing repeats leaves the elements in the order of their first appearance. -/
theorem firstSeen_eraseDups {α : Type} [BEq α] [LawfulBEq α] (items : List α) :
    FirstSeen items items.eraseDups := by
  refine ⟨fun x => List.mem_eraseDups, ?_⟩
  induction items using List.reverseRecOn with
  | nil => exact .nil
  | append_singleton items x ih =>
    have hsame : items.eraseDups.Pairwise fun y z =>
        (items ++ [x]).idxOf y < (items ++ [x]).idxOf z := by
      refine ih.imp_of_mem fun {y z} hy hz hlt => ?_
      rwa [List.idxOf_append_of_mem (List.mem_eraseDups.1 hy),
        List.idxOf_append_of_mem (List.mem_eraseDups.1 hz)]
    rw [eraseDups_append_singleton]
    split
    · exact hsame
    · next hx =>
      refine List.pairwise_append.2 ⟨hsame, List.pairwise_singleton _ _, fun y hy z hz => ?_⟩
      obtain rfl := List.mem_singleton.1 hz
      have hmem := List.mem_eraseDups.1 hy
      rw [List.idxOf_append_of_mem hmem, List.idxOf_append_of_notMem hx]
      exact Nat.lt_add_right _ (List.idxOf_lt_length_of_mem hmem)

/-- The last element with a property is the last of the elements with the property. -/
theorem findRev?_eq_getLast?_filter {α : Type} (p : α → Bool) (items : List α) :
    items.findRev? p = (items.filter p).getLast? := by
  rw [List.findRev?_eq_find?_reverse, List.getLast?_eq_head?_reverse, ← List.filter_reverse,
    List.head?_filter]

namespace ValueList

theorem ofPairs_append_singleton (pairs : List (Text × Text)) (pair : Text × Text) :
    ofPairs (pairs ++ [pair]) = (ofPairs pairs).insert pair.1 pair.2 := by
  rw [ofPairs, List.foldl_append]
  rfl

/-- A value that is not listed is added at the end. -/
theorem put_of_not_mem {value : Text} {pairs : List (Text × Text)}
    (h : value ∉ pairs.map Prod.fst) (description : Text) :
    put value description pairs = pairs ++ [(value, description)] := by
  induction pairs with
  | nil => rfl
  | cons pair rest ih =>
    rw [List.map_cons, List.mem_cons, not_or] at h
    rw [put, if_neg (Ne.symm h.1), ih h.2, List.cons_append]

/-- The last insertion of a value gives its description. -/
theorem get?_ofPairs (pairs : List (Text × Text)) (value : Text) :
    (ofPairs pairs).get? value = (pairs.findRev? fun e => e.1 = value).map Prod.snd := by
  rw [List.findRev?_eq_find?_reverse]
  induction pairs using List.reverseRecOn with
  | nil => rfl
  | append_singleton pairs pair ih =>
    rw [ofPairs_append_singleton, get?_insert, ih, List.reverse_append]
    by_cases h : pair.1 = value <;> simp [h]

/-- The first insertion of a value gives its place. -/
theorem map_fst_ofPairs (pairs : List (Text × Text)) :
    (ofPairs pairs).pairs.map Prod.fst = (pairs.map Prod.fst).eraseDups := by
  induction pairs using List.reverseRecOn with
  | nil => rfl
  | append_singleton pairs pair ih =>
    rw [ofPairs_append_singleton, List.map_append, List.map_singleton, eraseDups_append_singleton,
      ← ih]
    change (put pair.1 pair.2 (ofPairs pairs).pairs).map Prod.fst = _
    rw [map_fst_put, ih]
    simp only [List.mem_eraseDups]

/-- Only the list of no insertions is empty. -/
theorem isEmpty_ofPairs {pairs : List (Text × Text)} :
    (ofPairs pairs).isEmpty = true ↔ pairs = [] := by
  have hvalues := map_fst_ofPairs pairs
  cases pairs with
  | nil => exact iff_of_true rfl rfl
  | cons pair rest =>
    rw [List.map_cons, List.eraseDups_cons] at hvalues
    refine iff_of_false (fun hnil => ?_) (List.cons_ne_nil _ _)
    rw [List.isEmpty_iff.1 hnil] at hvalues
    cases hvalues

/-- Inserting distinct values lists them as they come. -/
theorem pairs_ofPairs {pairs : List (Text × Text)} (h : (pairs.map Prod.fst).Nodup) :
    (ofPairs pairs).pairs = pairs := by
  induction pairs using List.reverseRecOn with
  | nil => rfl
  | append_singleton pairs pair ih =>
    rw [List.map_append, List.nodup_append] at h
    obtain ⟨hpairs, -, hnew⟩ := h
    have hnot : pair.1 ∉ pairs.map Prod.fst := fun hmem => hnew _ hmem pair.1 (by simp) rfl
    rw [ofPairs_append_singleton]
    change put pair.1 pair.2 (ofPairs pairs).pairs = _
    rw [ih hpairs, put_of_not_mem hnot]

/-- The pairs of a list are what looking up answers. -/
theorem mem_pairs_iff {values : ValueList} {value description : Text} :
    (value, description) ∈ values.pairs ↔ values.get? value = some description := by
  obtain ⟨pairs, distinct⟩ := values
  simp only [get?]
  induction pairs with
  | nil => simp [describe]
  | cons e rest ih =>
    obtain ⟨v, d⟩ := e
    obtain ⟨hhead, hrest⟩ := List.nodup_cons.1 distinct
    by_cases h : v = value
    · subst h
      have hnot : (v, description) ∉ rest := fun hmem =>
        hhead (List.mem_map.2 ⟨_, hmem, rfl⟩)
      simp [describe, hnot, eq_comm]
    · simp [describe, h, Ne.symm h, ih hrest]

/-- Every pair of a list was inserted. -/
theorem mem_of_mem_ofPairs {pairs : List (Text × Text)} {pair : Text × Text}
    (h : pair ∈ (ofPairs pairs).pairs) : pair ∈ pairs := by
  have hget := mem_pairs_iff.1 h
  rw [get?_ofPairs] at hget
  obtain ⟨found, hfound, hdescription⟩ := Option.map_eq_some_iff.1 hget
  have hvalue : found.1 = pair.1 := by simpa using (findRev?_eq_some_iff.1 hfound).1
  exact Prod.ext hvalue hdescription ▸ mem_of_findRev? hfound

/-- A list of values is the list of its values, each with what looking it up answers. -/
theorem pairs_eq_filterMap (values : ValueList) :
    values.pairs = (values.pairs.map Prod.fst).filterMap fun value =>
      (values.get? value).map fun description => (value, description) := by
  have hlookup : ∀ pair ∈ values.pairs, (values.get? pair.1).map (fun description =>
      (pair.1, description)) = some pair := by
    rintro ⟨value, description⟩ hmem
    rw [mem_pairs_iff.1 hmem, Option.map_some]
  rw [List.filterMap_map]
  exact ((List.filterMap_congr hlookup).trans List.filterMap_some).symm

/-- Of several insertions, the last one of the value that is the last to appear. -/
def newest? (pairs : List (Text × Text)) : Option (Text × Text) :=
  (pairs.map Prod.fst).eraseDups.getLast?.bind fun value => pairs.findRev? fun e => e.1 = value

/-- There is a newest insertion unless there is none. -/
theorem newest?_eq_none_iff {pairs : List (Text × Text)} : newest? pairs = none ↔ pairs = [] := by
  constructor
  · intro h
    cases hlast : (pairs.map Prod.fst).eraseDups.getLast? with
    | none =>
      have hnil := List.getLast?_eq_none_iff.1 hlast
      rw [List.eq_nil_iff_forall_not_mem] at hnil ⊢
      intro e he
      exact hnil e.1 (List.mem_eraseDups.2 (List.mem_map_of_mem he))
    | some value =>
      rw [newest?, hlast, Option.bind_some, List.findRev?_eq_find?_reverse,
        List.find?_eq_none] at h
      have hmem : value ∈ pairs.map Prod.fst :=
        List.mem_eraseDups.1 (List.mem_of_getLast? hlast)
      obtain ⟨e, he, rfl⟩ := List.mem_map.1 hmem
      exact absurd (by simp) (h e (List.mem_reverse.2 he))
  · rintro rfl
    rfl

/-- The last of the values of a kind is listed as the newest insertion of the kind. -/
theorem findRev?_ofPairs (kind : Text → Bool) (pairs : List (Text × Text)) :
    ((ofPairs pairs).pairs.findRev? fun e => kind e.1) =
      newest? (pairs.filter fun e => kind e.1) := by
  have hvalue : ((ofPairs pairs).pairs.findRev? fun e => kind e.1).map Prod.fst =
      ((pairs.filter fun e => kind e.1).map Prod.fst).eraseDups.getLast? := by
    rw [findRev?_eq_getLast?_filter, ← List.getLast?_map]
    change (((ofPairs pairs).pairs.filter (kind ∘ Prod.fst)).map Prod.fst).getLast? =
      ((pairs.filter (kind ∘ Prod.fst)).map Prod.fst).eraseDups.getLast?
    rw [← List.filter_map, ← List.filter_map, map_fst_ofPairs, filter_eraseDups]
  cases hlast : (ofPairs pairs).pairs.findRev? fun e => kind e.1 with
  | none =>
    rw [hlast] at hvalue
    rw [newest?, ← hvalue]
    rfl
  | some e =>
    obtain ⟨value, description⟩ := e
    rw [hlast] at hvalue
    rw [newest?, ← hvalue, Option.map_some, Option.bind_some]
    have hkind : kind value = true := (findRev?_eq_some_iff.1 hlast).1
    have hget : (ofPairs pairs).get? value = some description :=
      mem_pairs_iff.1 (mem_of_findRev? hlast)
    rw [get?_ofPairs] at hget
    obtain ⟨⟨v, d⟩, hfound, rfl⟩ := Option.map_eq_some_iff.1 hget
    have hv : v = value := by simpa using (findRev?_eq_some_iff.1 hfound).1
    rw [List.findRev?_eq_find?_reverse, ← List.filter_reverse, List.find?_filter, ← hv,
      ← List.findRev?_eq_find?_reverse]
    rw [← hv] at hfound hkind
    rw [← hfound]
    congr 1
    funext e
    by_cases he : e.1 = v <;> simp [he, hkind]

end ValueList

end StyleDocs
