import StyleDocs.Json

/-!
# Printing JSON

Values are printed one item to a line, two spaces deeper at each level; an empty list or object
stays on its line. In strings the quote, the backslash and the control characters are escaped, five
of the controls by a letter and the others by four hexadecimal digits.
-/

namespace StyleDocs.Json

/-- Four hexadecimal digits of a code unit. -/
def fourDigits (n : Nat) : Text :=
  [n / 4096 % 16, n / 256 % 16, n / 16 % 16, n % 16].map Nat.digitChar

/-- A character inside a string. -/
def escapeChar (c : Char) : Text :=
  if c = '"' then "\\\"".toList
  else if c = '\\' then "\\\\".toList
  else if c = '\n' then "\\n".toList
  else if c = '\r' then "\\r".toList
  else if c = '\t' then "\\t".toList
  else if c = '\x08' then "\\b".toList
  else if c = '\x0c' then "\\f".toList
  else if c.toNat < 0x20 then "\\u".toList ++ fourDigits c.toNat
  else [c]

/-- An element of a string. -/
def escapeUnit : Unit16 → Text
  | .char c => escapeChar c
  | .code n => "\\u".toList ++ fourDigits n

/-- A string in quotes. -/
def printString (s : Str) : Text := '"' :: s.flatMap escapeUnit ++ ['"']

/-- A new line at a level of nesting. -/
def newLine (level : Nat) : Text := '\n' :: List.replicate (2 * level) ' '

mutual

/-- A value at a level of nesting. -/
def print (level : Nat) : Value → Text
  | .null => "null".toList
  | .bool b => Text.ofBool b
  | .number digits => digits
  | .string s => printString s
  | .array [] => "[]".toList
  | .array (item :: items) =>
    ['['] ++ newLine (level + 1) ++ print (level + 1) item ++ printItems (level + 1) items
      ++ newLine level ++ [']']
  | .object [] => "\x7b\x7d".toList
  | .object (member :: members) =>
    ['\x7b'] ++ newLine (level + 1) ++ printMember (level + 1) member
      ++ printMembers (level + 1) members ++ newLine level ++ ['\x7d']

/-- The items behind the first. -/
def printItems (level : Nat) : List Value → Text
  | [] => []
  | item :: items => [','] ++ newLine level ++ print level item ++ printItems level items

/-- A member of an object. -/
def printMember (level : Nat) : Str × Value → Text
  | (name, value) => printString name ++ ": ".toList ++ print level value

/-- The members behind the first. -/
def printMembers (level : Nat) : List (Str × Value) → Text
  | [] => []
  | member :: members =>
    [','] ++ newLine level ++ printMember level member ++ printMembers level members

end

end StyleDocs.Json
