import StyleDocs.Markdown.Fence

/-!
# Sections

A heading is one to six number signs, a gap and a title; number signs and gaps at the end of the
line do not belong to the title. A heading counts where the line is not fenced. A section is what
stands between its heading and the next heading of any level, and titles are compared without regard
to the case of ASCII letters. The first section with a title is the one that is found.
-/

namespace StyleDocs.Markdown

open Text

/-- Whether a character may follow the title of a heading. -/
def isClosing (c : Char) : Bool := isGap c || c == '#'

/-- The title in what follows the gap of a heading: a carriage return at the end and the closing
characters before it are dropped. -/
def titleOf (rest : Text) : Text :=
  match rest.reverse with
  | '\r' :: before => (before.dropWhile isClosing).reverse
  | _ => trimEnd isClosing rest

/-- The title of a line that is a heading. -/
def headingTitle? (piece : Text) : Option Text :=
  let line := trimEnd (· == '\n') piece
  let level := (line.takeWhile (· == '#')).length
  let rest := line.dropWhile (· == '#')
  if 1 ≤ level && level ≤ 6 && rest.head?.any isGap then
    some (titleOf (rest.dropWhile isGap))
  else none

/-- The pieces of a text, each with its title if it is a heading that counts. -/
def outline (t : Text) : List (Text × Option Text) :=
  let ps := pieces t
  (ps.zip (fenced ps)).map fun
    | (piece, true) => (piece, none)
    | (piece, false) => (piece, headingTitle? piece)

/-- Whether a line is a heading with the title. -/
def isHeaded (title : Text) (line : Text × Option Text) : Bool :=
  line.2.any (sameIgnoringCase · title)

/-- The body of the first section with the title. -/
def section? (t title : Text) : Option Text :=
  match (outline t).dropWhile fun line => !isHeaded title line with
  | [] => none
  | _ :: rest => some ((rest.takeWhile fun line => line.2.isNone).map Prod.fst).flatten

example : section? "# A\n\nx\n\n## b ##\r\ny\n".toList "B".toList = some "y\n".toList := by
  decide

end StyleDocs.Markdown
