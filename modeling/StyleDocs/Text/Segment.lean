import StyleDocs.Text

/-!
# Segments of a text

The resolution of links, the removal of tags and the collection of link texts all read a text the
same way: from left to right, at each place either a pattern is found, and reading goes on behind
it, or the character there is plain. A pattern is a function from a text to what it finds at its
front and the text behind. The segments of a text are its plain characters and its finds, in order.
-/

namespace StyleDocs.Text

variable {α : Type}

/-- One step of reading a text for a pattern. -/
inductive Segment (α : Type) where
  /-- No find begins at this character. -/
  | plain (c : Char)
  /-- What the pattern found. -/
  | found (a : α)
  deriving DecidableEq, Repr

/-- A pattern: what it finds at the front of a text, and the text behind the find. -/
abbrev Pattern (α : Type) := Text → Option (α × Text)

/-- The segments of a text whose first `skip` characters belong to a find already made. -/
def segmentsFrom (p : Pattern α) : (skip : Nat) → Text → List (Segment α)
  | _, [] => []
  | skip + 1, _ :: cs => segmentsFrom p skip cs
  | 0, c :: cs =>
    match p (c :: cs) with
    | some (a, rest) => .found a :: segmentsFrom p (cs.length - rest.length) cs
    | none => .plain c :: segmentsFrom p 0 cs

/-- The segments of a text. -/
def segments (p : Pattern α) (t : Text) : List (Segment α) := segmentsFrom p 0 t

/-- The finds of a pattern, in order. -/
def findings (p : Pattern α) (t : Text) : List α :=
  (segments p t).filterMap fun
    | .plain _ => none
    | .found a => some a

/-- Write `image a` for every find `a` and keep the plain characters. -/
def substitute (p : Pattern α) (image : α → Text) (t : Text) : Text :=
  (segments p t).flatMap fun
    | .plain c => [c]
    | .found a => image a

/-- Skipping as many characters as the text starts with leaves the rest of it. -/
theorem segmentsFrom_append (p : Pattern α) (u t : Text) :
    segmentsFrom p u.length (u ++ t) = segments p t := by
  induction u with
  | nil => rfl
  | cons c u ih => simpa [segmentsFrom] using ih

/-- Behind a find that took at least one character, reading starts afresh. -/
theorem segments_found {p : Pattern α} {c : Char} {u rest : Text} {a : α}
    (h : p (c :: (u ++ rest)) = some (a, rest)) :
    segments p (c :: (u ++ rest)) = .found a :: segments p rest := by
  simp only [segments, segmentsFrom, h, List.length_append, Nat.add_sub_cancel]
  exact congrArg _ (segmentsFrom_append p u rest)

/-- Where the pattern finds nothing, the character is plain. -/
theorem segments_plain {p : Pattern α} {c : Char} {t : Text} (h : p (c :: t) = none) :
    segments p (c :: t) = .plain c :: segments p t := by
  simp [segments, segmentsFrom, h]

end StyleDocs.Text
