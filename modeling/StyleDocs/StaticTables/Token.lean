import StyleDocs.Json.Reader

/-!
# Tokens of a source file

A source file is read as a list of tokens: words, marks, literals and lifetimes, with white space
and comments between them. A literal of a text is one token whatever the text is, and the token
holds the text that the literal denotes: a backslash in it stands before a quote, an apostrophe,
another backslash or a letter for one of four controls, or it opens a code point in hexadecimal
digits and braces. The file is read one character at a time, so reading two pieces of a file in a
row is reading the first and going on with the second. Forms that are not needed for tables, such as
raw literals and comments in brackets, are not read at all.
-/

namespace StyleDocs.StaticTables

/-- A token of a source file. -/
inductive Token where
  /-- A name, a keyword or a number. -/
  | word (w : Text)
  /-- A mark of punctuation. -/
  | mark (c : Char)
  /-- The literal of a text. -/
  | text (t : Text)
  /-- The literal of a character. -/
  | char (c : Char)
  /-- The name of a lifetime. -/
  | lifetime (name : Text)
  deriving DecidableEq, Repr

namespace Token

/-- What the reader is in the middle of. What has been read of a token is kept last first. -/
inductive Mode where
  /-- A token begins next. -/
  | between
  /-- A token begins next, behind a literal. -/
  | closed
  /-- A word. -/
  | word (read : Text)
  /-- Behind a slash. -/
  | slash
  /-- A comment. -/
  | comment
  /-- The literal of a text. -/
  | text (read : Text)
  /-- The literal of a text, behind a backslash. -/
  | escape (read : Text)
  /-- The literal of a text, before the brace of a code point. -/
  | code (read : Text)
  /-- The literal of a text, behind so many digits of a code point with this value. -/
  | digits (read : Text) (count value : Nat)
  /-- Behind an apostrophe. -/
  | tick
  /-- Behind an apostrophe and a character. -/
  | ticked (c : Char)
  /-- A lifetime. -/
  | lifetime (read : Text)
  deriving DecidableEq, Repr

/-- The white space between tokens. -/
def isSpace (c : Char) : Bool := c == ' ' || c == '\t' || c == '\n' || c == '\r'

/-- A character of a word. -/
def isWordChar (c : Char) : Bool := c.isAlphanum || c == '_'

/-- A mark of punctuation that is a token by itself. -/
def isMark (c : Char) : Bool :=
  c ∈ ['#', '[', ']', '(', ')', '\x7b', '\x7d', '<', '>', ':', ';', ',', '.', '&', '|', '=', '!',
    '?', '+', '-', '*', '%', '^', '@', '$', '~']

/-- The character that a backslash and one more character stand for. -/
def escaped? (c : Char) : Option Char :=
  if c = '"' || c = '\'' || c = '\\' then some c
  else if c = '0' then some '\x00'
  else if c = 't' then some '\t'
  else if c = 'r' then some '\r'
  else if c = 'n' then some '\n'
  else none

/-- Begin a token with its first character. -/
def begin? (c : Char) : Option (List Token × Mode) :=
  if isSpace c then some ([], .between)
  else if c = '"' then some ([], .text [])
  else if c = '\'' then some ([], .tick)
  else if c = '/' then some ([], .slash)
  else if isWordChar c then some ([], .word [c])
  else if isMark c then some ([.mark c], .between)
  else none

/-- End a token before the character with which the next begins. -/
def endWith (token : Token) (c : Char) : Option (List Token × Mode) :=
  (begin? c).map fun next => (token :: next.1, next.2)

/-- The tokens that one more character completes, and what the reader is in the middle of behind
it. -/
def step (mode : Mode) (c : Char) : Option (List Token × Mode) :=
  match mode with
  | .between => begin? c
  | .closed => if isWordChar c then none else begin? c
  | .word read =>
    if isWordChar c then some ([], .word (c :: read))
    else if c = '"' || c = '\'' || c = '#' then none
    else endWith (.word read.reverse) c
  | .slash =>
    if c = '/' then some ([], .comment)
    else if c = '*' then none
    else endWith (.mark '/') c
  | .comment =>
    if c = '\n' then some ([], .between) else if c = '\r' then none else some ([], .comment)
  | .text read =>
    if c = '"' then some ([.text read.reverse], .closed)
    else if c = '\\' then some ([], .escape read)
    else if c = '\r' then none
    else some ([], .text (c :: read))
  | .escape read =>
    if c = 'u' then some ([], .code read)
    else (escaped? c).map fun d => ([], .text (d :: read))
  | .code read => if c = '\x7b' then some ([], .digits read 0 0) else none
  | .digits read count value =>
    if c = '\x7d' then
      if 0 < count && value.isValidChar then some ([], .text (Char.ofNat value :: read)) else none
    else if count < 6 then
      (Json.hexValue? c).map fun d => ([], .digits read (count + 1) (16 * value + d))
    else none
  | .tick => if c = '\'' || c = '\\' || isSpace c then none else some ([], .ticked c)
  | .ticked d =>
    if c = '\'' then some ([.char d], .closed)
    else if !isWordChar d then none
    else if isWordChar c then some ([], .lifetime [c, d])
    else endWith (.lifetime [d]) c
  | .lifetime read =>
    if isWordChar c then some ([], .lifetime (c :: read))
    else if c = '\'' then none
    else endWith (.lifetime read.reverse) c

/-- The tokens that a piece of a file completes, and what the reader is in the middle of behind
it. -/
def run (mode : Mode) : Text → Option (List Token × Mode)
  | [] => some ([], mode)
  | c :: t =>
    (step mode c).bind fun first => (run first.2 t).map fun rest => (first.1 ++ rest.1, rest.2)

/-- The token that the end of the file completes. -/
def finish? : Mode → Option (List Token)
  | .between | .closed | .comment => some []
  | .word read => some [.word read.reverse]
  | .slash => some [.mark '/']
  | .lifetime read => some [.lifetime read.reverse]
  | _ => none

/-- The tokens of a file. -/
def tokens? (t : Text) : Option (List Token) :=
  (run .between t).bind fun read => (finish? read.2).map fun last => read.1 ++ last

/-- Reading two pieces in a row is reading the first and going on with the second. -/
theorem run_append (mode : Mode) (a b : Text) :
    run mode (a ++ b) = (run mode a).bind fun first =>
      (run first.2 b).map fun rest => (first.1 ++ rest.1, rest.2) := by
  induction a generalizing mode with
  | nil => cases h : run mode b <;> simp [run, h]
  | cons c a ih =>
    rw [List.cons_append, run, run]
    cases step mode c with
    | none => rfl
    | some first =>
      rw [Option.bind_some, Option.bind_some, ih]
      cases run first.2 a with
      | none => rfl
      | some middle => cases h : run middle.2 b <;> simp [h]

example : tokens? "f(\"a\\u\x7b301\x7d\\\"\", &'b) // c".toList =
    some [.word "f".toList, .mark '(', .text "a\u0301\"".toList, .mark ',', .mark '&',
      .lifetime "b".toList, .mark ')'] := by decide +kernel

end Token

end StyleDocs.StaticTables
