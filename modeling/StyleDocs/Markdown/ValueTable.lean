import StyleDocs.Markdown.Fence
import StyleDocs.Text.Segment
import StyleDocs.ValueList

/-!
# Tables of values

The rows of a table of values stand anywhere outside fenced code. A row has a first cell with the
value and a second with its description; further cells do not matter and neither do the outer bars.
The note that marks the default is not part of the value, and neither are backquotes around it. A
row whose first cell is a column title, a rule or more than one word names no value.
-/

namespace StyleDocs.Markdown

open Text

/-- The note that marks the default value: the word in parentheses, in any case. -/
def defaultNote : Pattern Unit
  | '(' :: t =>
    let t := trimStart isBlank t
    if sameIgnoringCase (t.take 7) "default".toList then
      match trimStart isBlank (t.drop 7) with
      | ')' :: rest => some ((), rest)
      | _ => none
    else none
  | _ => none

/-- A cell without the notes that mark the default. -/
def dropDefault (cell : Text) : Text := substitute defaultNote (fun _ => []) cell

/-- The value that a cell names. -/
def cellValue (cell : Text) : Text :=
  strip (trimEnds (· == backquote) (strip (dropDefault cell)))

/-- Whether a cell is the rule under the column titles: hyphens, with or without a colon at either
end. -/
def isRule (cell : Text) : Bool :=
  let inner := (after? [':'] cell).getD cell
  let inner := if inner.getLast? = some ':' then inner.dropLast else inner
  !inner.isEmpty && inner.all (· == '-')

/-- Whether a cell names a value: one word that is neither a column title nor a rule. -/
def namesValue (cell : Text) : Bool :=
  !cell.isEmpty && !sameIgnoringCase cell "value".toList && !isRule cell
    && cell.all fun c => !isBlank c && c != '|'

/-- The first two cells of a line, with the bar in front of them dropped. -/
def firstCells? (line : Text) : Option (Text × Text) :=
  let line := trimStart isGap line
  let line := (after? ['|'] line).getD line
  match line.dropWhile (· != '|') with
  | [] => none
  | _ :: rest => some (line.takeWhile (· != '|'), rest.takeWhile (· != '|'))

/-- The value and the description of a line that is a row. -/
def row? (line : Text) : Option (Text × Text) :=
  match firstCells? line with
  | none => none
  | some (first, second) =>
    let value := cellValue first
    let description := strip second
    if namesValue value && !description.isEmpty then some (value, description) else none

/-- The rows of a text outside fenced code, in order. -/
def rows (t : Text) : List (Text × Text) :=
  let ls := lines t
  (ls.zip (fenced ls)).filterMap fun
    | (_, true) => none
    | (line, false) => row? line

/-- The values that a text lists. -/
def valueTable (t : Text) : ValueList := ValueList.ofPairs (rows t)

example : (valueTable "| Value | x |\n|---|:-:|\n| `a` (default) | one |\nb | two\n".toList).pairs =
    [("a".toList, "one".toList), ("b".toList, "two".toList)] := by decide

end StyleDocs.Markdown
