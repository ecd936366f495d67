import StyleDocs.Text

/-!
# Tables with sorted keys

A table lists its entries in ascending order of their keys, each key once. The order is part of the
type, so two tables with the same entries are the same table, printing a table needs no sorting, and
a search by bisection may rely on the order. Insertion replaces the value of a key it already has.
-/

namespace StyleDocs

/-- Entries in ascending order of their keys. -/
structure Table (α : Type) where
  /-- The entries, key first. -/
  entries : List (Text × α)
  /-- Keys ascend, so none occurs twice. -/
  ascending : entries.Pairwise fun a b => a.1 < b.1
  deriving DecidableEq

namespace Table

variable {α β : Type}

theorem eq_of_entries_eq {s t : Table α} (h : s.entries = t.entries) : s = t := by
  cases s
  cases t
  cases h
  rfl

/-- The table without entries. -/
def empty : Table α := ⟨[], .nil⟩

instance : Inhabited (Table α) := ⟨empty⟩

instance : EmptyCollection (Table α) := ⟨empty⟩

/-- Put an entry in its place among ascending entries. -/
def place (key : Text) (value : α) : List (Text × α) → List (Text × α)
  | [] => [(key, value)]
  | (k, v) :: rest =>
    if key < k then (key, value) :: (k, v) :: rest
    else if key = k then (key, value) :: rest
    else (k, v) :: place key value rest

theorem mem_place {key : Text} {value : α} {e : Text × α} {entries : List (Text × α)}
    (h : e ∈ place key value entries) : e = (key, value) ∨ e ∈ entries := by
  induction entries with
  | nil => exact Or.inl (List.mem_singleton.1 h)
  | cons head rest ih =>
    obtain ⟨k, v⟩ := head
    unfold place at h
    split at h
    · exact (List.mem_cons.1 h).imp id id
    · split at h
      · exact (List.mem_cons.1 h).imp id (List.mem_cons_of_mem _)
      · rcases List.mem_cons.1 h with rfl | h
        · exact Or.inr List.mem_cons_self
        · exact (ih h).imp id (List.mem_cons_of_mem _)

theorem pairwise_place {key : Text} {value : α} {entries : List (Text × α)}
    (h : entries.Pairwise fun a b => a.1 < b.1) :
    (place key value entries).Pairwise fun a b => a.1 < b.1 := by
  induction entries with
  | nil => exact List.pairwise_singleton _ _
  | cons head rest ih =>
    obtain ⟨k, v⟩ := head
    obtain ⟨hhead, hrest⟩ := List.pairwise_cons.1 h
    unfold place
    split
    · next hlt =>
      refine List.pairwise_cons.2 ⟨fun e he => ?_, h⟩
      rcases List.mem_cons.1 he with rfl | he
      · exact hlt
      · exact List.lt_trans hlt (hhead e he)
    · split
      · next heq =>
        subst heq
        exact List.pairwise_cons.2 ⟨fun e he => hhead e he, hrest⟩
      · next hnlt hne =>
        refine List.pairwise_cons.2 ⟨fun e he => ?_, ih hrest⟩
        rcases mem_place he with rfl | he
        · exact Decidable.byContradiction fun hn =>
            hne (List.le_antisymm (List.not_lt.1 hn) (List.not_lt.1 hnlt))
        · exact hhead e he

/-- Insert an entry; a value that the key already has is replaced. -/
def insert (key : Text) (value : α) (t : Table α) : Table α :=
  ⟨place key value t.entries, pairwise_place t.ascending⟩

/-- The value of the first entry with the key. -/
def seek (key : Text) : List (Text × α) → Option α
  | [] => none
  | (k, v) :: rest => if k = key then some v else seek key rest

/-- The value of a key. -/
def get? (t : Table α) (key : Text) : Option α := seek key t.entries

/-- Whether the table has the key. -/
def has (t : Table α) (key : Text) : Bool := (t.get? key).isSome

/-- The keys, ascending. -/
def keys (t : Table α) : List Text := t.entries.map Prod.fst

/-- The number of entries. -/
def size (t : Table α) : Nat := t.entries.length

/-- Whether there is no entry. -/
def isEmpty (t : Table α) : Bool := t.entries.isEmpty

/-- Insert entries one after the other, so that the last value of a key stays. -/
def ofList (entries : List (Text × α)) : Table α :=
  entries.foldl (fun t e => t.insert e.1 e.2) empty

theorem seek_place (key k : Text) (value : α) (entries : List (Text × α)) :
    seek k (place key value entries) = if key = k then some value else seek k entries := by
  induction entries with
  | nil => simp [place, seek]
  | cons head rest ih =>
    obtain ⟨k', v⟩ := head
    unfold place
    split
    · simp [seek]
    · split
      · next heq =>
        subst heq
        by_cases h : key = k <;> simp [seek, h]
      · next hne =>
        by_cases h : k' = k
        · subst h
          simp [seek, hne]
        · simp [seek, h, ih]

theorem seek_append (k : Text) (xs ys : List (Text × α)) :
    seek k (xs ++ ys) = (seek k xs).or (seek k ys) := by
  induction xs with
  | nil => simp [seek]
  | cons e xs ih =>
    obtain ⟨k', v⟩ := e
    by_cases h : k' = k <;> simp [seek, h, ih]

/-- After an insertion the key has the new value and every other key what it had. -/
theorem get?_insert (t : Table α) (key k : Text) (value : α) :
    (t.insert key value).get? k = if key = k then some value else t.get? k :=
  seek_place key k value t.entries

@[simp] theorem get?_empty (k : Text) : (empty : Table α).get? k = none := rfl

/-- The last entry with a key gives its value. -/
theorem get?_ofList (entries : List (Text × α)) (k : Text) :
    (ofList entries).get? k = seek k entries.reverse := by
  suffices h : ∀ t : Table α, (entries.foldl (fun t e => t.insert e.1 e.2) t).get? k =
      (seek k entries.reverse).or (t.get? k) by
    simpa [ofList] using h empty
  induction entries with
  | nil => intro t; simp [seek]
  | cons e rest ih =>
    intro t
    obtain ⟨key, value⟩ := e
    rw [List.foldl_cons, ih, get?_insert, List.reverse_cons, seek_append]
    by_cases h : key = k <;> cases seek k rest.reverse <;> simp [seek, h]

end Table

end StyleDocs
