import StyleDocs.Text.CodeRange
import StyleDocs.Text.HiddenTable

/-!
# Quoted literals

The literal of a text stands between double quotes. A quote and a backslash are written behind a
backslash, a line feed, a carriage return, a tab and a null by a letter or digit behind one, and a
character that does not show by its code point in hexadecimal digits and braces. Every other
character is written as itself.
-/

namespace StyleDocs.Text

/-- Whether the character does not show by itself. -/
def isHidden (c : Char) : Bool := covered c.toNat hiddenRanges

/-- A character inside a literal. -/
def quoteChar (c : Char) : Text :=
  if c = '\x00' then "\\0".toList
  else if c = '\t' then "\\t".toList
  else if c = '\r' then "\\r".toList
  else if c = '\n' then "\\n".toList
  else if c = '\\' then "\\\\".toList
  else if c = '"' then "\\\"".toList
  else if isHidden c then "\\u\x7b".toList ++ Nat.toDigits 16 c.toNat ++ "\x7d".toList
  else [c]

/-- The literal of a text. -/
def quote (t : Text) : Text := '"' :: t.flatMap quoteChar ++ ['"']

example : quote "a\u0301 \"b\"\n".toList = "\"a\\u\x7b301\x7d \\\"b\\\"\\n\"".toList := by
  decide +kernel

end StyleDocs.Text
