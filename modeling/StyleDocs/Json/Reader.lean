import StyleDocs.Json

/-!
# Reading JSON

A text is read one character at a time. The state of the reader is what it is in the middle of: the
lists and objects that are still open, and in the innermost of them a value, a name, a string, a
number or a word. Each character takes the state to the next or shows that the text is no JSON; at
the end of the text a complete value must have been read. Because reading is a fold over the
characters, reading two texts one after the other is reading the first and going on with the second,
and nesting is limited by nothing.
-/

namespace StyleDocs.Json

/-- An open list or object. What has been read of it is kept last first. -/
inductive Frame where
  /-- A list. -/
  | items (before : List Value)
  /-- An object, in the member with this name. -/
  | member (before : List (Str × Value)) (name : Str)

/-- Whose string is being read. -/
inductive Owner where
  /-- A value. -/
  | value
  /-- The name of a member, behind these members. -/
  | name (before : List (Str × Value))

/-- How far a number has been read. -/
inductive Digits where
  /-- The minus sign. -/
  | sign
  /-- A zero in front. -/
  | zero
  /-- Digits before the point. -/
  | whole
  /-- The point. -/
  | point
  /-- Digits behind the point. -/
  | fraction
  /-- The mark of the exponent. -/
  | mark
  /-- The sign of the exponent. -/
  | markSign
  /-- Digits of the exponent. -/
  | exponent
  deriving DecidableEq, Repr

/-- What the reader is in the middle of. -/
inductive Mode where
  /-- A value begins next. -/
  | value
  /-- The first item of a list begins next, or the list ends. -/
  | itemOrEnd
  /-- The first name of an object begins next, or the object ends. -/
  | nameOrEnd
  /-- A name begins next, behind these members. -/
  | name (before : List (Str × Value))
  /-- A colon comes next. -/
  | colon (before : List (Str × Value)) (name : Str)
  /-- A value is complete. -/
  | done (v : Value)
  /-- A string, read up to here. -/
  | string (owner : Owner) (read : Str)
  /-- A string, behind a backslash. -/
  | escape (owner : Owner) (read : Str)
  /-- A string, with so many digits of a code unit to come. -/
  | code (owner : Owner) (read : Str) (left value : Nat)
  /-- A number. -/
  | number (part : Digits) (read : Text)
  /-- A word of which this is to come. -/
  | word (rest : Text) (v : Value)

/-- The state of the reader. -/
structure State where
  /-- The open lists and objects, innermost first. -/
  frames : List Frame
  /-- What is being read in the innermost. -/
  mode : Mode

/-- The state before the first character. -/
def start : State := ⟨[], .value⟩

/-- The white space between the parts of a JSON text. -/
def isSpace (c : Char) : Bool := c == ' ' || c == '\t' || c == '\n' || c == '\r'

/-- The value of a hexadecimal digit. -/
def hexValue? (c : Char) : Option Nat :=
  if '0' ≤ c ∧ c ≤ '9' then some (c.toNat - '0'.toNat)
  else if 'a' ≤ c ∧ c ≤ 'f' then some (c.toNat - 'a'.toNat + 10)
  else if 'A' ≤ c ∧ c ≤ 'F' then some (c.toNat - 'A'.toNat + 10)
  else none

/-- The character that an escape of one letter stands for. -/
def escaped? (c : Char) : Option Char :=
  if c = '"' || c = '\\' || c = '/' then some c
  else if c = 'b' then some '\x08'
  else if c = 'f' then some '\x0c'
  else if c = 'n' then some '\n'
  else if c = 'r' then some '\r'
  else if c = 't' then some '\t'
  else none

/-- Begin a value with its first character. -/
def beginValue (frames : List Frame) (c : Char) : Option State :=
  if c = '"' then some ⟨frames, .string .value []⟩
  else if c = '[' then some ⟨.items [] :: frames, .itemOrEnd⟩
  else if c = '\x7b' then some ⟨frames, .nameOrEnd⟩
  else if c = '-' then some ⟨frames, .number .sign ['-']⟩
  else if c = '0' then some ⟨frames, .number .zero ['0']⟩
  else if c.isDigit then some ⟨frames, .number .whole [c]⟩
  else if c = 'n' then some ⟨frames, .word "ull".toList .null⟩
  else if c = 't' then some ⟨frames, .word "rue".toList (.bool true)⟩
  else if c = 'f' then some ⟨frames, .word "alse".toList (.bool false)⟩
  else none

/-- Begin a name behind some members. -/
def beginName (frames : List Frame) (before : List (Str × Value)) (c : Char) : Option State :=
  if c = '"' then some ⟨frames, .string (.name before) []⟩ else none

/-- What follows a complete value: a comma or the end of what it stands in. -/
def afterValue (frames : List Frame) (v : Value) (c : Char) : Option State :=
  match frames with
  | [] => none
  | .items before :: outer =>
    if c = ',' then some ⟨.items (v :: before) :: outer, .value⟩
    else if c = ']' then some ⟨outer, .done (.array (v :: before).reverse)⟩
    else none
  | .member before name :: outer =>
    if c = ',' then some ⟨outer, .name ((name, v) :: before)⟩
    else if c = '\x7d' then some ⟨outer, .done (.object ((name, v) :: before).reverse)⟩
    else none

/-- The end of a string, whose elements are kept last first. -/
def endString (frames : List Frame) (owner : Owner) (read : Str) : State :=
  match owner with
  | .value => ⟨frames, .done (.string read.reverse)⟩
  | .name before => ⟨frames, .colon before read.reverse⟩

/-- One more character of a number, if it can belong to it. -/
def Digits.next? (part : Digits) (c : Char) : Option Digits :=
  match part with
  | .sign => if c = '0' then some .zero else if c.isDigit then some .whole else none
  | .zero =>
    if c = '.' then some .point else if c = 'e' || c = 'E' then some .mark else none
  | .whole =>
    if c.isDigit then some .whole
    else if c = '.' then some .point else if c = 'e' || c = 'E' then some .mark else none
  | .point => if c.isDigit then some .fraction else none
  | .fraction =>
    if c.isDigit then some .fraction else if c = 'e' || c = 'E' then some .mark else none
  | .mark =>
    if c.isDigit then some .exponent else if c = '+' || c = '-' then some .markSign else none
  | .markSign => if c.isDigit then some .exponent else none
  | .exponent => if c.isDigit then some .exponent else none

/-- Whether a number may end here. -/
def Digits.mayEnd : Digits → Bool
  | .zero | .whole | .fraction | .exponent => true
  | .sign | .point | .mark | .markSign => false

/-- A character behind a complete value. -/
def stepDone (frames : List Frame) (v : Value) (c : Char) : Option State :=
  if isSpace c then some ⟨frames, .done v⟩ else afterValue frames v c

/-- The state behind one more character, if the text can be JSON. -/
def step (s : State) (c : Char) : Option State :=
  match s.mode with
  | .value => if isSpace c then some s else beginValue s.frames c
  | .itemOrEnd =>
    if isSpace c then some s
    else if c = ']' then some ⟨s.frames.tail, .done (.array [])⟩
    else beginValue s.frames c
  | .nameOrEnd =>
    if isSpace c then some s
    else if c = '\x7d' then some ⟨s.frames, .done (.object [])⟩
    else beginName s.frames [] c
  | .name before => if isSpace c then some s else beginName s.frames before c
  | .colon before name =>
    if isSpace c then some s
    else if c = ':' then some ⟨.member before name :: s.frames, .value⟩
    else none
  | .done v => stepDone s.frames v c
  | .string owner read =>
    if c = '"' then some (endString s.frames owner read)
    else if c = '\\' then some ⟨s.frames, .escape owner read⟩
    else if c.toNat < 0x20 then none
    else some ⟨s.frames, .string owner (.char c :: read)⟩
  | .escape owner read =>
    if c = 'u' then some ⟨s.frames, .code owner read 4 0⟩
    else (escaped? c).map fun d => ⟨s.frames, .string owner (.char d :: read)⟩
  | .code owner read left value =>
    (hexValue? c).map fun d =>
      let value := 16 * value + d
      if left ≤ 1 then ⟨s.frames, .string owner (.code value :: read)⟩
      else ⟨s.frames, .code owner read (left - 1) value⟩
  | .number part read =>
    match part.next? c with
    | some part => some ⟨s.frames, .number part (c :: read)⟩
    | none => if part.mayEnd then stepDone s.frames (.number read.reverse) c else none
  | .word rest v =>
    match rest with
    | [] => none
    | d :: rest =>
      if c = d then some ⟨s.frames, if rest = [] then .done v else .word rest v⟩ else none

/-- The value that has been read when the text ends. -/
def finish (s : State) : Option Value :=
  match s.frames, s.mode with
  | [], .done v => some v
  | [], .number part read => if part.mayEnd then some (.number read.reverse) else none
  | _, _ => none

/-- Read a text from a state on. -/
def run (s : State) (t : Text) : Option State := t.foldlM step s

/-- The value that a text describes. -/
def parse (t : Text) : Option Value := (run start t).bind finish

/-- Reading two texts in a row is reading the first and going on with the second. -/
theorem run_append (s : State) (a b : Text) : run s (a ++ b) = (run s a).bind (run · b) :=
  List.foldlM_append

end StyleDocs.Json
