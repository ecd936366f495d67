import StyleDocs.Text

/-!
# JSON values

A JSON text describes a value. A string in it is a sequence of characters and of code units in four
hexadecimal digits; the units of a surrogate pair stand for one character together, and a lone
surrogate stands for none, so that some strings denote no text.
-/

namespace StyleDocs.Json

/-- One element of a string. -/
inductive Unit16 where
  /-- A character. -/
  | char (c : Char)
  /-- A code unit. -/
  | code (n : Nat)
  deriving DecidableEq, Repr

/-- A string of a JSON text. -/
abbrev Str := List Unit16

/-- A JSON value. The members of an object are in their order, with repeats. -/
inductive Value where
  /-- Nothing. -/
  | null
  /-- A truth value. -/
  | bool (b : Bool)
  /-- A number, as it is written. -/
  | number (digits : Text)
  /-- A string. -/
  | string (s : Str)
  /-- A list. -/
  | array (items : List Value)
  /-- An object. -/
  | object (members : List (Str × Value))
  deriving Inhabited

/-- Whether the code unit is the first of a surrogate pair. -/
def isHigh (n : Nat) : Bool := 0xD800 ≤ n && n ≤ 0xDBFF

/-- Whether the code unit is the second of a surrogate pair. -/
def isLow (n : Nat) : Bool := 0xDC00 ≤ n && n ≤ 0xDFFF

/-- The text of a string, if it has no lone surrogate. -/
def text? : Str → Option Text
  | [] => some []
  | .char c :: rest => (text? rest).map (c :: ·)
  | .code n :: rest =>
    if isHigh n then
      match rest with
      | .code m :: rest =>
        if isLow m then
          (text? rest).map (Char.ofNat (0x10000 + (n - 0xD800) * 0x400 + (m - 0xDC00)) :: ·)
        else none
      | _ => none
    else if isLow n then none
    else (text? rest).map (Char.ofNat n :: ·)

/-- The string of a text. -/
def ofText (t : Text) : Str := t.map .char

/-- The string of a text denotes it. -/
@[simp] theorem text?_ofText (t : Text) : text? (ofText t) = some t := by
  induction t with
  | nil => rfl
  | cons c t ih => simpa [ofText, text?] using ih

/-- A list of pairs as an object. -/
def Value.ofMembers (members : List (Text × Value)) : Value :=
  .object (members.map fun m => (ofText m.1, m.2))

/-- A text as a value. -/
def Value.ofText (t : Text) : Value := .string (Json.ofText t)

end StyleDocs.Json
