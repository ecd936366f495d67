import StyleDocs.Text.CodeRange
import StyleDocs.Text.WordTable

/-!
# Words and their edges

A word is a run of letters, marks, digits and connectors. An edge of a word is a place with a
character of a word on exactly one side; the ends of a text count as a side without one.
-/

namespace StyleDocs.Text

/-- Whether words are made of this character. -/
def isWordChar (c : Char) : Bool := covered c.toNat wordRanges

/-- Whether there is an edge of a word between a character and the text behind it. -/
def isWordEdge (before : Char) (behind : Text) : Bool :=
  isWordChar before != behind.head?.any isWordChar

end StyleDocs.Text
