import Mathlib.Data.List.Basic
import StyleDocs.Table

/-!
# Looking up in tables

Searching a list of entries finds the first with a key, and a table filled one entry after the
other answers with the last. Both are told through `find?` and `findRev?`, so that what later
modules say about the winner of a collision is a statement about the last item of a list.
-/

namespace StyleDocs

/-- The last element with a property: it has the property and no element behind it has. -/
theorem findRev?_eq_some_iff {α : Type} {p : α → Bool} {items : List α} {x : α} :
    items.findRev? p = some x ↔ p x = true ∧ ∃ a b, items = a ++ x :: b ∧ ∀ y ∈ b, p y = false := by
  rw [List.findRev?_eq_find?_reverse, List.find?_eq_some_iff_append]
  refine and_congr_right fun _ => ?_
  constructor
  · rintro ⟨behind, before, h, hbehind⟩
    refine ⟨before.reverse, behind.reverse, ?_, ?_⟩
    · simpa using congrArg List.reverse h
    · intro y hy
      simpa using hbehind y (List.mem_reverse.1 hy)
  · rintro ⟨before, behind, rfl, hbehind⟩
    refine ⟨behind.reverse, before.reverse, by simp, ?_⟩
    intro y hy
    simpa using hbehind y (List.mem_reverse.1 hy)

theorem mem_of_findRev? {α : Type} {p : α → Bool} {items : List α} {x : α}
    (h : items.findRev? p = some x) : x ∈ items := by
  rw [List.findRev?_eq_find?_reverse] at h
  exact List.mem_reverse.1 (List.mem_of_find?_eq_some h)

/-- The last of the results with a property is the result of the last element that gives one. -/
theorem findRev?_filterMap {α β : Type} (f : α → Option β) (p : β → Bool) (items : List α) :
    (items.filterMap f).findRev? p = (items.findRev? fun a => (f a).any p).bind f := by
  rw [List.findRev?_eq_find?_reverse, ← List.filterMap_reverse, List.find?_filterMap,
    List.findRev?_eq_find?_reverse]

/-- In a list in order, an element with the property that is not the last of its kind comes before
the last. -/
theorem rel_of_findRev? {α : Type} {r : α → α → Prop} {p : α → Bool} {items : List α} {x y : α}
    (hr : items.Pairwise r) (hx : items.findRev? p = some x) (hy : y ∈ items) (hp : p y = true)
    (hne : y ≠ x) : r y x := by
  obtain ⟨-, before, behind, rfl, hbehind⟩ := findRev?_eq_some_iff.1 hx
  obtain ⟨-, -, hcross⟩ := List.pairwise_append.1 hr
  rcases List.mem_append.1 hy with hy | hy
  · exact hcross y hy x List.mem_cons_self
  · rcases List.mem_cons.1 hy with rfl | hy
    · exact absurd rfl hne
    · have hfalse := hbehind y hy
      rw [hp] at hfalse
      contradiction

namespace Table

variable {α β : Type}

theorem seek_eq_find? (key : Text) (entries : List (Text × α)) :
    seek key entries = (entries.find? fun e => e.1 = key).map Prod.snd := by
  induction entries with
  | nil => rfl
  | cons e rest ih =>
    obtain ⟨k, v⟩ := e
    by_cases h : k = key <;> simp [seek, h, ih]

/-- Searching looks at the entries with the key and at no other. -/
theorem seek_eq_head? (key : Text) (entries : List (Text × α)) :
    seek key entries = (entries.filter fun e => e.1 = key).head?.map Prod.snd := by
  rw [seek_eq_find?, List.head?_filter]

/-- Tables made from the same items answer alike for a key under which each item gives the same. -/
theorem get?_ofList_filterMap_congr {f g : β → Option (Text × α)} {items : List β} {key : Text}
    (h : ∀ x ∈ items, (f x).filter (fun e => e.1 = key) = (g x).filter fun e => e.1 = key) :
    (ofList (items.filterMap f)).get? key = (ofList (items.filterMap g)).get? key := by
  rw [get?_ofList, get?_ofList, seek_eq_head?, seek_eq_head?, List.filter_reverse,
    List.filter_reverse, List.filter_filterMap, List.filter_filterMap, List.filterMap_congr h]

/-- A table of entries made from items answers with what the last item of the key gives. -/
theorem get?_ofList_map (entry : β → Text × α) (items : List β) (key : Text) :
    (ofList (items.map entry)).get? key =
      (items.findRev? fun x => (entry x).1 = key).map fun x => (entry x).2 := by
  rw [get?_ofList, seek_eq_find?, ← List.map_reverse, List.find?_map,
    List.findRev?_eq_find?_reverse, Option.map_map]
  rfl

/-- A table has the keys of the entries that it is filled with. -/
theorem has_ofList_iff {entries : List (Text × α)} {key : Text} :
    (ofList entries).has key = true ↔ ∃ value, (key, value) ∈ entries := by
  rw [has, get?_ofList, seek_eq_find?, Option.isSome_map, List.find?_isSome]
  constructor
  · rintro ⟨⟨k, value⟩, hmem, hkey⟩
    obtain rfl : k = key := by simpa using hkey
    exact ⟨value, List.mem_reverse.1 hmem⟩
  · rintro ⟨value, hmem⟩
    exact ⟨(key, value), List.mem_reverse.2 hmem, by simp⟩

/-- In a list that has each key once, searching finds exactly the entries. -/
theorem seek_eq_some_iff {entries : List (Text × α)}
    (h : entries.Pairwise fun a b => a.1 ≠ b.1) {key : Text} {value : α} :
    seek key entries = some value ↔ (key, value) ∈ entries := by
  induction entries with
  | nil => simp [seek]
  | cons e rest ih =>
    obtain ⟨k, v⟩ := e
    obtain ⟨hhead, hrest⟩ := List.pairwise_cons.1 h
    by_cases hk : k = key
    · subst hk
      have hnot : (k, value) ∉ rest := fun hmem => hhead _ hmem rfl
      simp [seek, hnot, eq_comm]
    · simp [seek, hk, Ne.symm hk, ih hrest]

/-- Keys that ascend are distinct. -/
theorem pairwise_ne {entries : List (Text × α)} (h : entries.Pairwise fun a b => a.1 < b.1) :
    entries.Pairwise fun a b => a.1 ≠ b.1 := by
  refine h.imp ?_
  intro a b hlt heq
  rw [heq] at hlt
  exact List.lt_irrefl b.1 hlt

/-- The entries of a table are what looking up answers. -/
theorem mem_entries_iff {t : Table α} {key : Text} {value : α} :
    (key, value) ∈ t.entries ↔ t.get? key = some value :=
  (seek_eq_some_iff (pairwise_ne t.ascending)).symm

/-- Tables that answer alike are the same. -/
theorem eq_of_get?_eq {s t : Table α} (h : ∀ key, s.get? key = t.get? key) : s = t := by
  have hmem : ∀ e, e ∈ s.entries ↔ e ∈ t.entries := by
    rintro ⟨key, value⟩
    rw [mem_entries_iff, mem_entries_iff, h]
  have hnodup : ∀ u : Table α, u.entries.Nodup := fun u =>
    (pairwise_ne u.ascending).imp fun hne heq => hne (congrArg Prod.fst heq)
  have hperm := (List.perm_ext_iff_of_nodup (hnodup s) (hnodup t)).2 hmem
  refine eq_of_entries_eq (hperm.eq_of_pairwise ?_ s.ascending t.ascending)
  intro a b _ _ hab hba
  exact absurd (List.lt_trans hab hba) (List.lt_irrefl a.1)

/-- Filling a table with the entries of a table gives it again. -/
theorem ofList_entries (t : Table α) : ofList t.entries = t := by
  refine eq_of_get?_eq fun key => Option.ext fun value => ?_
  have hne := pairwise_ne t.ascending
  have hreverse : t.entries.reverse.Pairwise fun a b => a.1 ≠ b.1 :=
    List.pairwise_reverse.2 (hne.imp Ne.symm)
  rw [get?_ofList, get?, seek_eq_some_iff hreverse, seek_eq_some_iff hne, List.mem_reverse]

theorem mem_keys_iff {t : Table α} {key : Text} : key ∈ t.keys ↔ t.has key = true := by
  simp only [keys, List.mem_map, has, Option.isSome_iff_exists]
  constructor
  · rintro ⟨⟨k, v⟩, hmem, rfl⟩
    exact ⟨v, mem_entries_iff.1 hmem⟩
  · rintro ⟨v, hv⟩
    exact ⟨(key, v), mem_entries_iff.2 hv, rfl⟩

end Table

end StyleDocs
