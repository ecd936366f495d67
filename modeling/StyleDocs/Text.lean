/-!
# Texts as lists of characters

A text is the list of its characters, so every rule of this library about words, lines and
documents is a recursion on a list. This module holds the operations that know nothing of
documentation: trimming by a class of characters, what follows a word, the first occurrence of a
word, splitting at a mark and comparing without regard to the case of ASCII letters. The short
theorems say that cutting loses nothing.
-/

namespace StyleDocs

/-- A text is the list of its characters. Texts compare by code point, as lists of characters do. -/
abbrev Text := List Char

namespace Text

/-- Three backquotes, the usual fence of code. -/
def ticks : Text := "```".toList

/-- The backquote. -/
def backquote : Char := '\x60'

/-- Drop the characters of a class from the front. -/
def trimStart (p : Char → Bool) (t : Text) : Text := t.dropWhile p

/-- Drop the characters of a class from the end. -/
def trimEnd (p : Char → Bool) (t : Text) : Text := (t.reverse.dropWhile p).reverse

/-- Drop the characters of a class from both ends. -/
def trimEnds (p : Char → Bool) (t : Text) : Text := trimEnd p (trimStart p t)

/-- What follows the word `w` in a text that starts with it. -/
def after? : (w t : Text) → Option Text
  | [], t => some t
  | _ :: _, [] => none
  | w :: ws, c :: cs => if w = c then after? ws cs else none

/-- A text has something after `w` exactly when it starts with `w`. -/
theorem after?_eq_some_iff {w t rest : Text} : after? w t = some rest ↔ t = w ++ rest := by
  induction w generalizing t with
  | nil => simp [after?]
  | cons a w ih =>
    cases t with
    | nil => simp [after?]
    | cons c t =>
      by_cases h : a = c
      · subst h
        simp [after?, ih]
      · simp [after?, h, Ne.symm h]

/-- Whether the text starts with the word `w`. -/
def startsWith (w t : Text) : Bool := (after? w t).isSome

theorem startsWith_iff {w t : Text} : startsWith w t = true ↔ ∃ rest, t = w ++ rest := by
  simp [startsWith, Option.isSome_iff_exists, after?_eq_some_iff]

/-- The text before the first occurrence of `w` and the text behind it. -/
def cut? (w : Text) : Text → Option (Text × Text)
  | [] => if w.isEmpty then some ([], []) else none
  | c :: cs =>
    match after? w (c :: cs) with
    | some rest => some ([], rest)
    | none => (cut? w cs).map fun parts => (c :: parts.1, parts.2)

/-- Cutting loses nothing but the word. -/
theorem eq_of_cut? {w t a b : Text} (h : cut? w t = some (a, b)) : t = a ++ w ++ b := by
  induction t generalizing a b with
  | nil =>
    unfold cut? at h
    split at h
    · cases w with
      | nil => simp_all
      | cons c w => simp_all
    · simp at h
  | cons c t ih =>
    unfold cut? at h
    split at h
    · next rest hw =>
      cases h
      simpa using after?_eq_some_iff.1 hw
    · obtain ⟨⟨a', b'⟩, hc, he⟩ := Option.map_eq_some_iff.1 h
      cases he
      simp [ih hc]

/-- Whether the word `w` occurs anywhere in the text. -/
def includes (w : Text) : Text → Bool
  | [] => w.isEmpty
  | c :: cs => startsWith w (c :: cs) || includes w cs

/-- A word occurs exactly when the text is something, then the word, then something. -/
theorem includes_iff {w t : Text} : includes w t = true ↔ ∃ a b, t = a ++ w ++ b := by
  induction t with
  | nil =>
    cases w with
    | nil => simp [includes]
    | cons c w => simp [includes]
  | cons c t ih =>
    rw [includes, Bool.or_eq_true, startsWith_iff, ih]
    constructor
    · rintro (⟨b, hb⟩ | ⟨a, b, hab⟩)
      · exact ⟨[], b, by simpa using hb⟩
      · exact ⟨c :: a, b, by simp [hab]⟩
    · rintro ⟨a, b, hab⟩
      cases a with
      | nil => exact Or.inl ⟨b, by simpa using hab⟩
      | cons a' a =>
        simp only [List.cons_append, List.cons.injEq] at hab
        exact Or.inr ⟨a, b, by simpa using hab.2⟩

/-- The parts of a text between the marks `m`; there is always at least one. -/
def splitAt (m : Char) : Text → List Text
  | [] => [[]]
  | c :: cs =>
    if c = m then [] :: splitAt m cs
    else match splitAt m cs with
      | [] => [[c]]
      | part :: parts => (c :: part) :: parts

/-- Put a separator between texts. -/
def joinWith (sep : Text) : List Text → Text
  | [] => []
  | [t] => t
  | t :: ts => t ++ sep ++ joinWith sep ts

theorem splitAt_ne_nil (m : Char) (t : Text) : splitAt m t ≠ [] := by
  cases t with
  | nil => simp [splitAt]
  | cons c t =>
    unfold splitAt
    split
    · simp
    · split <;> simp

/-- Putting the marks back between the parts gives the text. -/
theorem joinWith_splitAt (m : Char) (t : Text) : joinWith [m] (splitAt m t) = t := by
  induction t with
  | nil => rfl
  | cons c t ih =>
    unfold splitAt
    cases hs : splitAt m t with
    | nil => exact absurd hs (splitAt_ne_nil m t)
    | cons p ps =>
      rw [hs] at ih
      by_cases h : c = m
      · simp [h, joinWith, ih]
      · cases ps with
        | nil => simpa [h, joinWith] using ih
        | cons q qs => simpa [h, joinWith] using ih

/-- Write `b` for every `a`. -/
def replaceChar (a b : Char) (t : Text) : Text := t.map fun c => if c = a then b else c

/-- Equality of texts that does not look at the case of ASCII letters. -/
def sameIgnoringCase (a b : Text) : Bool := a.map Char.toLower == b.map Char.toLower

/-- A natural number in decimal digits. -/
def ofNat (n : Nat) : Text := Nat.toDigits 10 n

/-- The words `true` and `false`. -/
def ofBool (b : Bool) : Text := if b then "true".toList else "false".toList

end Text

end StyleDocs
