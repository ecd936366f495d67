import StyleDocs.Text.Blank
import StyleDocs.Text.Segment

/-!
# Inline links

An inline link is a text in brackets and a target in parentheses right behind it. The text runs to
the first closing bracket and the target to the first closing parenthesis, over line ends as well.
-/

namespace StyleDocs.Markdown

open Text

/-- An inline link; what is found is its text. -/
def inlineLink : Pattern Text
  | '[' :: t =>
    match cut? [']'] t with
    | some (label, '(' :: behind) => (cut? [')'] behind).map fun parts => (label, parts.2)
    | _ => none
  | _ => none

/-- The text of a link as it is listed: without white space and backquotes around it. -/
def linkLabel (label : Text) : Text := strip (trimEnds (· == backquote) (strip label))

/-- The texts of the links, in order and with repeats; empty ones are left out. -/
def linkLabels (t : Text) : List Text :=
  ((findings inlineLink t).map linkLabel).filter fun label => !label.isEmpty

example : linkLabels "- [`a`](./a.md)\n- [a](x)\n- [``](y)".toList =
    ["a".toList, "a".toList] := by decide

end StyleDocs.Markdown
