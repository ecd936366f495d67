import StyleDocs.Text.Blank
import StyleDocs.Text.Lines

/-!
# Fences

A line that begins with three backquotes or three tildes, white space aside, is a fence. Fences pair
up from the top: the first opens code, the second closes it, and so on, whatever their kind. A fence
that is left without a partner opens nothing, and what follows it is ordinary text.
-/

namespace StyleDocs.Markdown

open Text

/-- Whether a line is a fence. -/
def isFence (line : Text) : Bool :=
  let line := trimStart isBlank line
  startsWith ticks line || startsWith "~~~".toList line

/-- For each line whether it is a fence of a pair or code between the two. The first argument tells
whether the lines begin inside a pair. -/
def fencedFrom (inside : Bool) : List Text → List Bool
  | [] => []
  | line :: rest =>
    if isFence line then
      if inside then true :: fencedFrom false rest
      else if rest.any isFence then true :: fencedFrom true rest
      else false :: rest.map fun _ => false
    else inside :: fencedFrom inside rest

/-- For each line whether it is a fence of a pair or code between the two. -/
def fenced (lines : List Text) : List Bool := fencedFrom false lines

theorem length_fencedFrom (inside : Bool) (lines : List Text) :
    (fencedFrom inside lines).length = lines.length := by
  induction lines generalizing inside with
  | nil => rfl
  | cons line rest ih =>
    unfold fencedFrom
    split
    · split
      · simp [ih]
      · split <;> simp [ih]
    · simp [ih]

/-- There is one flag for each line. -/
@[simp] theorem length_fenced (lines : List Text) : (fenced lines).length = lines.length :=
  length_fencedFrom false lines

example : fenced ["a".toList, "```py".toList, "b".toList, "~~~".toList, "c".toList,
    " ```".toList, "d".toList] = [false, true, true, true, false, false, false] := by decide

end StyleDocs.Markdown
