import StyleDocs.Text

/-!
# Lines

A text is cut into pieces that each end with their line feed; only the last piece may lack one. A
line is a piece without its line end, which is a line feed or a carriage return and a line feed.
-/

namespace StyleDocs.Text

/-- The pieces of a text, each with its line feed. -/
def pieces : Text → List Text
  | [] => []
  | c :: cs =>
    if c = '\n' then ['\n'] :: pieces cs
    else match pieces cs with
      | [] => [[c]]
      | p :: ps => (c :: p) :: ps

/-- The pieces of a text make up the text. -/
theorem flatten_pieces (t : Text) : (pieces t).flatten = t := by
  induction t with
  | nil => rfl
  | cons c t ih =>
    unfold pieces
    by_cases h : c = '\n'
    · simp [h, ih]
    · cases hp : pieces t with
      | nil => simpa [h, hp] using ih
      | cons p ps => simpa [h, hp] using ih

/-- A piece without its line end. -/
def chomp (piece : Text) : Text :=
  match piece.reverse with
  | '\n' :: '\r' :: rest => rest.reverse
  | '\n' :: rest => rest.reverse
  | _ => piece

/-- The lines of a text. -/
def lines (t : Text) : List Text := (pieces t).map chomp

end StyleDocs.Text
