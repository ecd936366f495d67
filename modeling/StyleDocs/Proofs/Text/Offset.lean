import StyleDocs.Text

/-!
# Byte offsets

A place in a text can be given by the number of bytes in front of it, counted in UTF-8. Not every
number is a place: it may lie beyond the end, or inside a character that takes several bytes. A text
is cut only at places, so a part between two offsets exists exactly when the offsets count the bytes
of two beginnings of the text, the first no longer than the second.
-/

namespace StyleDocs.Text

/-- How many bytes a text takes. -/
def byteLength : Text → Nat
  | [] => 0
  | c :: t => c.utf8Size + byteLength t

@[simp] theorem byteLength_nil : byteLength [] = 0 := rfl

@[simp] theorem byteLength_cons (c : Char) (t : Text) :
    byteLength (c :: t) = c.utf8Size + byteLength t := rfl

@[simp] theorem byteLength_append (a b : Text) :
    byteLength (a ++ b) = byteLength a + byteLength b := by
  induction a with
  | nil => rw [List.nil_append, byteLength_nil, Nat.zero_add]
  | cons c a ih => rw [List.cons_append, byteLength_cons, ih, byteLength_cons, Nat.add_assoc]

/-- The text before a byte offset and the text behind it, if the offset is a place. -/
def splitBytes? : Nat → Text → Option (Text × Text)
  | 0, t => some ([], t)
  | _ + 1, [] => none
  | n + 1, c :: cs =>
    if c.utf8Size ≤ n + 1 then
      (splitBytes? (n + 1 - c.utf8Size) cs).map fun parts => (c :: parts.1, parts.2)
    else none

/-- An offset is a place exactly when it counts the bytes of a beginning of the text. -/
theorem splitBytes?_eq_some_iff {n : Nat} {t a b : Text} :
    splitBytes? n t = some (a, b) ↔ t = a ++ b ∧ byteLength a = n := by
  induction t generalizing n a with
  | nil => cases n <;> simp +contextual [splitBytes?, eq_comm]
  | cons c t ih =>
    cases n with
    | zero =>
      cases a with
      | nil => simp [splitBytes?, eq_comm]
      | cons d a =>
        have hpos := d.utf8Size_pos
        simp [splitBytes?]
        omega
    | succ n =>
      unfold splitBytes?
      split
      · next hfits =>
        rw [Option.map_eq_some_iff]
        constructor
        · rintro ⟨⟨a', b'⟩, hcut, heq⟩
          obtain ⟨rfl, rfl⟩ := Prod.mk.inj heq
          obtain ⟨rfl, hlength⟩ := ih.1 hcut
          exact ⟨rfl, by rw [byteLength_cons, hlength]; omega⟩
        · rintro ⟨htext, hlength⟩
          cases a with
          | nil => cases hlength
          | cons d a =>
            obtain ⟨rfl, rfl⟩ := List.cons.inj htext
            rw [byteLength_cons] at hlength
            exact ⟨(a, b), ih.2 ⟨rfl, by omega⟩, rfl⟩
      · next hlong =>
        refine iff_of_false (by simp) ?_
        rintro ⟨htext, hlength⟩
        cases a with
        | nil => cases hlength
        | cons d a =>
          obtain ⟨rfl, -⟩ := List.cons.inj htext
          rw [byteLength_cons] at hlength
          omega

/-- The part of a text between two byte offsets, if they are places in this order. -/
def slice? (t : Text) (start stop : Nat) : Option Text :=
  (splitBytes? stop t).bind fun parts => (splitBytes? start parts.1).map Prod.snd

/-- A part between two offsets is what stands behind so many bytes up to so many bytes. -/
theorem slice?_eq_some_iff {t u : Text} {start stop : Nat} :
    slice? t start stop = some u ↔
      ∃ a b, t = a ++ u ++ b ∧ byteLength a = start ∧ byteLength (a ++ u) = stop := by
  rw [slice?, Option.bind_eq_some_iff]
  constructor
  · rintro ⟨⟨front, b⟩, hstop, hstart⟩
    obtain ⟨⟨a, u'⟩, hcut, rfl⟩ := Option.map_eq_some_iff.1 hstart
    obtain ⟨rfl, hfront⟩ := splitBytes?_eq_some_iff.1 hstop
    obtain ⟨rfl, ha⟩ := splitBytes?_eq_some_iff.1 hcut
    exact ⟨a, b, rfl, ha, hfront⟩
  · rintro ⟨a, b, rfl, ha, hfront⟩
    refine ⟨(a ++ u, b), splitBytes?_eq_some_iff.2 ⟨rfl, hfront⟩, ?_⟩
    rw [splitBytes?_eq_some_iff.2 ⟨rfl, ha⟩]
    rfl

end StyleDocs.Text
