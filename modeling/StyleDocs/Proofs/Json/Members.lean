import Mathlib.Data.List.Forall2
import Mathlib.Data.List.Nodup
import StyleDocs.Reference.Json

/-!
# Objects of known members

What is read from an object are the values that it has under the names that are known. An object is
read when all its names denote texts and no known name occurs twice. So members under other names
may be put in anywhere, and the members may be in any order; and what is changed in the value of one
member matters only to what is read from that value.
-/

namespace StyleDocs.Json

/-! ### The values under a name -/

/-- The values that an object has under a name. -/
def valuesNamed (name : Text) (members : List (Str × Value)) : List Value :=
  members.filterMap fun m => if text? m.1 = some name then some m.2 else none

/-- Whether an object of known members is read: its names denote texts, and under each known name it
has one value at most. -/
def Readable (names : List Text) (members : List (Str × Value)) : Prop :=
  (∀ m ∈ members, (text? m.1).isSome) ∧ ∀ name ∈ names, (valuesNamed name members).length ≤ 1

/-- A list is read item by item, and only if each item is. -/
theorem mapM_eq_some_iff {α β : Type} {f : α → Option β} {items : List α} {results : List β} :
    items.mapM f = some results ↔ List.Forall₂ (fun a b => f a = some b) items results := by
  induction items generalizing results with
  | nil => simp [eq_comm]
  | cons a items ih =>
    rw [List.mapM_cons]
    cases results with
    | nil =>
      cases h : f a with
      | none => simp
      | some b => cases hrest : items.mapM f <;> simp
    | cons b results =>
      rw [List.forall₂_cons, ← ih]
      cases h : f a with
      | none => simp
      | some b' => cases hrest : items.mapM f <;> simp

theorem valuesNamed_eq_of_forall₂ {members : List (Str × Value)} {named : List (Text × Value)}
    (h : List.Forall₂ (fun m n => text? m.1 = some n.1 ∧ m.2 = n.2) members named) (name : Text) :
    valuesNamed name members = (named.filter fun n => n.1 == name).map Prod.snd := by
  induction h with
  | nil => rfl
  | @cons m n members named hm _ ih =>
    obtain ⟨hname, hvalue⟩ := hm
    rw [valuesNamed, List.filterMap_cons, List.filter_cons, ← valuesNamed, ih, hname, hvalue]
    by_cases heq : n.1 = name <;> simp [heq]

/-- The names of members denote texts when each of them does. -/
theorem namedMembers?_eq_some_iff {members : List (Str × Value)} {named : List (Text × Value)} :
    namedMembers? members = some named ↔
      List.Forall₂ (fun m n => text? m.1 = some n.1 ∧ m.2 = n.2) members named := by
  rw [namedMembers?, mapM_eq_some_iff]
  have hiff : ∀ (m : Str × Value) (n : Text × Value),
      ((text? m.1).map fun name => (name, m.2)) = some n ↔ text? m.1 = some n.1 ∧ m.2 = n.2 := by
    intro m n
    rw [Option.map_eq_some_iff]
    constructor
    · rintro ⟨name, hname, rfl⟩
      exact ⟨hname, rfl⟩
    · rintro ⟨hname, hvalue⟩
      exact ⟨n.1, hname, Prod.ext rfl hvalue⟩
  simp only [hiff]

theorem exists_namedMembers?_iff {members : List (Str × Value)} :
    (∃ named, namedMembers? members = some named) ↔ ∀ m ∈ members, (text? m.1).isSome := by
  simp only [namedMembers?_eq_some_iff]
  induction members with
  | nil => simp
  | cons m members ih =>
    rw [List.forall_mem_cons, ← ih]
    constructor
    · rintro ⟨named, h⟩
      cases h with
      | @cons _ n _ named hm hrest => exact ⟨by rw [hm.1]; rfl, named, hrest⟩
    · rintro ⟨hm, named, hrest⟩
      obtain ⟨name, hname⟩ := Option.isSome_iff_exists.1 hm
      exact ⟨(name, m.2) :: named, .cons ⟨hname, rfl⟩ hrest⟩

/-- No known name occurs twice when there is one value at most under each. -/
theorem nodup_known_iff {names : List Text} {named : List (Text × Value)} :
    ((named.filter fun n => names.contains n.1).map Prod.fst).Nodup ↔
      ∀ name ∈ names, (named.filter fun n => n.1 == name).length ≤ 1 := by
  have hcount : ∀ name, ((named.filter fun n => names.contains n.1).map Prod.fst).count name =
      if name ∈ names then (named.filter fun n => n.1 == name).length else 0 := by
    intro name
    rw [List.count_eq_countP, List.countP_map, List.countP_filter, List.countP_eq_length_filter]
    split
    · next hname =>
      congr 1
      refine List.filter_congr fun n _ => ?_
      by_cases heq : n.1 = name <;> simp [heq, hname]
    · next hname =>
      rw [List.length_eq_zero_iff, List.filter_eq_nil_iff]
      intro n _ h
      simp only [Function.comp_apply, Bool.and_eq_true, beq_iff_eq, List.contains_iff_mem] at h
      exact hname (h.1 ▸ h.2)
  rw [List.nodup_iff_count_le_one]
  simp only [hcount]
  constructor
  · intro h name hname
    simpa [hname] using h name
  · intro h name
    split
    · next hname => exact h name hname
    · exact Nat.zero_le 1

/-- What is read from an object of known members. -/
theorem fields?_object_eq_some_iff {names : List Text} {members : List (Str × Value)}
    {fields : List (Option Value)} :
    fields? names (.object members) = some fields ↔
      Readable names members ∧ fields = names.map fun name => (valuesNamed name members).head? := by
  cases hnamed : namedMembers? members with
  | none =>
    have hread : ¬ ∀ m ∈ members, (text? m.1).isSome := by
      rw [← exists_namedMembers?_iff, hnamed]
      simp
    rw [fields?, knownMembers?, hnamed]
    exact iff_of_false (by simp) fun h => hread h.1.1
  | some named =>
    have hall := exists_namedMembers?_iff.1 ⟨named, hnamed⟩
    have hvalues := valuesNamed_eq_of_forall₂ (namedMembers?_eq_some_iff.1 hnamed)
    have hfound : ∀ name ∈ names, ((named.filter fun n => names.contains n.1).find? fun n =>
        n.1 == name).map Prod.snd = (valuesNamed name members).head? := by
      intro name hname
      rw [hvalues, List.head?_map, ← List.head?_filter, List.filter_filter]
      congr 2
      refine List.filter_congr fun n _ => ?_
      by_cases heq : n.1 = name <;> simp [heq, hname]
    have hreadable : Readable names members ↔
        ((named.filter fun n => names.contains n.1).map Prod.fst).Nodup := by
      rw [nodup_known_iff, Readable, and_iff_right hall]
      simp only [hvalues, List.length_map]
    rw [hreadable, fields?, knownMembers?, hnamed]
    dsimp only
    split
    · next hnodup =>
      rw [and_iff_right hnodup, Option.map_some, Option.some.injEq, List.map_congr_left hfound,
        eq_comm]
    · next hnodup => exact iff_of_false (by simp) fun h => hnodup h.1

/-! ### Members that are put in -/

/-- Whether the name of a member denotes a text other than the known names. -/
def Unknown (names : List Text) (m : Str × Value) : Prop :=
  ∃ name, text? m.1 = some name ∧ name ∉ names

/-- Whether members are some others in any order with unknown members between them. -/
def Extended (names : List Text) (members members' : List (Str × Value)) : Prop :=
  ∃ extra, (∀ m ∈ extra, Unknown names m) ∧ members'.Perm (extra ++ members)

section Extended

variable {names : List Text} {members members' : List (Str × Value)}

theorem valuesNamed_append (name : Text) (a b : List (Str × Value)) :
    valuesNamed name (a ++ b) = valuesNamed name a ++ valuesNamed name b := List.filterMap_append

theorem valuesNamed_of_unknown {name : Text} (hname : name ∈ names)
    {extra : List (Str × Value)} (h : ∀ m ∈ extra, Unknown names m) :
    valuesNamed name extra = [] := by
  refine List.filterMap_eq_nil_iff.2 fun m hm => if_neg fun heq => ?_
  obtain ⟨other, hother, hunknown⟩ := h m hm
  obtain rfl : name = other := Option.some.inj (heq.symm.trans hother)
  exact hunknown hname

/-- An object has the same values under the known names, in some order. -/
theorem Extended.perm_valuesNamed (h : Extended names members members') {name : Text}
    (hname : name ∈ names) : (valuesNamed name members').Perm (valuesNamed name members) := by
  obtain ⟨extra, hextra, hperm⟩ := h
  have hvalues := hperm.filterMap fun m => if text? m.1 = some name then some m.2 else none
  rw [← valuesNamed, ← valuesNamed, valuesNamed_append, valuesNamed_of_unknown hname hextra,
    List.nil_append] at hvalues
  exact hvalues

theorem Extended.readable_iff (h : Extended names members members') :
    Readable names members' ↔ Readable names members := by
  have hnames : (∀ m ∈ members', (text? m.1).isSome) ↔ ∀ m ∈ members, (text? m.1).isSome := by
    obtain ⟨extra, hextra, hperm⟩ := h
    simp only [hperm.mem_iff, List.forall_mem_append]
    refine and_iff_right fun m hm => ?_
    obtain ⟨name, hname, -⟩ := hextra m hm
    rw [hname]
    rfl
  rw [Readable, Readable, hnames]
  refine and_congr_right fun _ => forall₂_congr fun name hname => ?_
  rw [(h.perm_valuesNamed hname).length_eq]

/-- Unknown members and the order of the members do not matter to what is read. -/
theorem Extended.fields?_eq (h : Extended names members members') :
    fields? names (.object members') = fields? names (.object members) := by
  refine Option.ext fun fields => ?_
  rw [fields?_object_eq_some_iff, fields?_object_eq_some_iff, h.readable_iff]
  refine and_congr_right fun hreadable => ?_
  have hvalues : ∀ name ∈ names, (valuesNamed name members').head? =
      (valuesNamed name members).head? := by
    intro name hname
    have hperm := h.perm_valuesNamed hname
    have hone := hreadable.2 name hname
    cases hvalues : valuesNamed name members with
    | nil => rw [hvalues, List.perm_nil] at hperm; rw [hperm]
    | cons v rest =>
      rw [hvalues] at hperm hone
      obtain rfl : rest = [] := by simpa using hone
      rw [List.perm_singleton] at hperm
      rw [hperm]
  rw [List.map_congr_left hvalues]

end Extended

/-! ### Members that are changed -/

/-- Whether a member is another with its value as it is, or changed in some way if it has the name
of a field. -/
def EditedMember (field : Text) (edit : Value → Value → Prop) (m m' : Str × Value) : Prop :=
  m'.1 = m.1 ∧ (m'.2 = m.2 ∨ text? m.1 = some field ∧ edit m.2 m'.2)

section Edited

variable {names : List Text} {field : Text} {edit : Value → Value → Prop}
  {members members' : List (Str × Value)}

theorem valuesNamed_edited (h : List.Forall₂ (EditedMember field edit) members members')
    (name : Text) :
    List.Forall₂ (fun v v' => v' = v ∨ name = field ∧ edit v v') (valuesNamed name members)
      (valuesNamed name members') := by
  induction h with
  | nil => exact .nil
  | @cons m m' members members' hm _ ih =>
    obtain ⟨hname, hvalue⟩ := hm
    rw [valuesNamed, valuesNamed, List.filterMap_cons, List.filterMap_cons, ← valuesNamed,
      ← valuesNamed, hname]
    by_cases heq : text? m.1 = some name
    · rw [if_pos heq, if_pos heq]
      refine .cons (hvalue.imp_right ?_) ih
      rintro ⟨hfield, hedit⟩
      exact ⟨Option.some.inj (heq.symm.trans hfield), hedit⟩
    · rw [if_neg heq, if_neg heq]
      exact ih

/-- The first of two lists that go together go together. -/
theorem head?_cases {α β : Type} {R : α → β → Prop} {a : List α} {b : List β}
    (h : List.Forall₂ R a b) :
    (a.head? = none ∧ b.head? = none) ∨ ∃ x y, a.head? = some x ∧ b.head? = some y ∧ R x y := by
  cases h with
  | nil => exact Or.inl ⟨rfl, rfl⟩
  | @cons x y _ _ hxy _ => exact Or.inr ⟨x, y, rfl, rfl, hxy⟩

theorem readable_edited_iff (h : List.Forall₂ (EditedMember field edit) members members') :
    Readable names members' ↔ Readable names members := by
  have hnames : (∀ m ∈ members', (text? m.1).isSome) ↔ ∀ m ∈ members, (text? m.1).isSome := by
    induction h with
    | nil => rfl
    | cons hm _ ih => rw [List.forall_mem_cons, List.forall_mem_cons, ih, hm.1]
  rw [Readable, Readable, hnames]
  refine and_congr_right fun _ => forall₂_congr fun name _ => ?_
  rw [(valuesNamed_edited h name).length_eq]

/-- The fields of an object that is changed: both are refused, or the one that is changed is read
alike if its value is, and the others are the same. -/
theorem fields?_edited {β : Type} {read : Value → β}
    (h : List.Forall₂ (EditedMember field edit) members members')
    (hread : ∀ v v', edit v v' → read v' = read v) :
    (fields? names (.object members) = none ∧ fields? names (.object members') = none) ∨
      ∃ values values' : Text → Option Value,
        fields? names (.object members) = some (names.map values) ∧
        fields? names (.object members') = some (names.map values') ∧
        (∀ name, name ≠ field → values' name = values name) ∧
        (values' field).map read = (values field).map read := by
  by_cases hreadable : Readable names members
  · refine Or.inr ⟨fun name => (valuesNamed name members).head?,
      fun name => (valuesNamed name members').head?,
      fields?_object_eq_some_iff.2 ⟨hreadable, rfl⟩,
      fields?_object_eq_some_iff.2 ⟨(readable_edited_iff h).2 hreadable, rfl⟩, ?_, ?_⟩
    · intro name hname
      dsimp only
      obtain ⟨hnone, hnone'⟩ | ⟨v, v', hv, hv', rfl | ⟨hfield, -⟩⟩ :=
        head?_cases (valuesNamed_edited h name)
      · rw [hnone, hnone']
      · rw [hv, hv']
      · exact absurd hfield hname
    · dsimp only
      obtain ⟨hnone, hnone'⟩ | ⟨v, v', hv, hv', rfl | ⟨-, hedit⟩⟩ :=
        head?_cases (valuesNamed_edited h field)
      · rw [hnone, hnone']
      · rw [hv, hv']
      · rw [hv, hv', Option.map_some, Option.map_some, hread v v' hedit]
  · have hnone : ∀ members, ¬ Readable names members → fields? names (.object members) = none := by
      intro members hnot
      refine Option.eq_none_iff_forall_ne_some.2 fun fields hfields => ?_
      exact hnot (fields?_object_eq_some_iff.1 hfields).1
    exact Or.inl ⟨hnone members hreadable, hnone members' (mt (readable_edited_iff h).1 hreadable)⟩

end Edited

end StyleDocs.Json
