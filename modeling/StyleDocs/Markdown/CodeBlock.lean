import StyleDocs.Text.Blank
import StyleDocs.Text.Word

/-!
# Labelled code

The example of a section is the first labelled block of code: three backquotes, gaps, one of the
labels up to the edge of a word, the rest of the line, and then everything up to the next three
backquotes. A block may begin anywhere in a line. Line breaks before the code and white space behind
it are dropped, and code that is blank is no example.
-/

namespace StyleDocs.Markdown

open Text

/-- The places behind the gaps at the front of a text where a label may begin, the one behind the
most gaps first; each with the character before it. -/
def labelPlaces (before : Char) : Text → List (Char × Text)
  | [] => [(before, [])]
  | c :: cs =>
    if isGap c then labelPlaces c cs ++ [(before, c :: cs)] else [(before, c :: cs)]

/-- The code of a block whose label begins here: what stands between the end of the line and the
next three backquotes. -/
def codeBehind? (label : Text) (before : Char) (t : Text) : Option Text :=
  match after? label t with
  | none => none
  | some rest =>
    if isWordEdge (label.getLast?.getD before) rest then
      match cut? ['\n'] rest with
      | none => none
      | some (_, body) => (cut? ticks body).map Prod.fst
    else none

/-- The code of a block that begins at the front of a text. A block without labels to choose from
has the empty label. -/
def blockAt? (labels : List Text) (t : Text) : Option Text :=
  match after? ticks t with
  | none => none
  | some rest =>
    let labels := if labels.isEmpty then [[]] else labels
    (labelPlaces backquote rest).findSome? fun place =>
      labels.findSome? fun label => codeBehind? label place.1 place.2

/-- The code of the first block with one of the labels. -/
def block? (labels : List Text) : Text → Option Text
  | [] => none
  | c :: cs =>
    match blockAt? labels (c :: cs) with
    | some code => some code
    | none => block? labels cs

/-- Code without line breaks before it and white space behind it, unless it is blank. -/
def tidyCode? (code : Text) : Option Text :=
  let code := trimEnd isBlank (trimStart isBreak code)
  if allBlank code then none else some code

/-- The example in a text: the first block of code with one of the labels. -/
def example? (labels : List Text) (t : Text) : Option Text := (block? labels t).bind tidyCode?

example : example? ["python".toList, "py".toList]
    "\n```py title=\"a.py\"\nx = 1\n```\n".toList = some "x = 1".toList := by decide

end StyleDocs.Markdown
