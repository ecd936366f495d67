import StyleDocs.Markdown.Fence
import StyleDocs.Text.Segment

/-!
# Cleaning the grammar of a property

The grammar of a property is published without the fences around it, without the lines that include
another file and without the anchors that its source carries. Anchors are dropped with all their
attributes; what stands between an opening and a closing anchor stays.
-/

namespace StyleDocs.Markdown

open Text

/-- The end of a tag: what follows its closing bracket, and for a tag with attributes what follows
the first closing bracket behind them. -/
def tagEnd? : Text → Option Text
  | [] => none
  | c :: cs =>
    if c = '>' then some cs
    else if isBlank c then (cut? ['>'] cs).map Prod.snd
    else none

/-- The name of an anchor tag in front of its end. -/
def anchorName? (t : Text) : Option Text := (after? ['a'] t).bind tagEnd?

/-- An anchor tag, opening or closing. -/
def anchorTag : Pattern Unit
  | '<' :: t => (anchorName? ((after? ['/'] t).getD t)).map ((), ·)
  | _ => none

/-- A text without its anchor tags. -/
def dropAnchors (t : Text) : Text := substitute anchorTag (fun _ => []) t

/-- Whether a line of the grammar stays: it is no fence and does not hold the inclusion mark. The
empty mark marks no line. -/
def staysInGrammar (mark line : Text) : Bool :=
  !isFence line && (mark.isEmpty || !includes mark line)

/-- The grammar in a section. -/
def grammarText (mark t : Text) : Text :=
  strip (dropAnchors (joinWith ['\n'] ((lines t).filter (staysInGrammar mark))))

example : grammarText "--8<--".toList
    "\n--8<-- \"a.md\"\n```\n<a href=\"./x\">x</a>: <b>;\n```\n".toList = "x: <b>;".toList := by
  decide

end StyleDocs.Markdown
