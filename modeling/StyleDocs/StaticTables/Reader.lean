import StyleDocs.StaticTables
import StyleDocs.StaticTables.Token

/-!
# Reading static tables from their source

The tables are read from the tokens of a source file: the address of the site behind its name, then
the five tables in their order, each behind its name and the type of its entries. White space and
comments do not matter, and neither does a comma behind the last item of a list. The functions that
stand behind the tables are left as tokens.
-/

namespace StyleDocs.StaticTables

/-- A reading of the first tokens of a list: what they say and the tokens behind them. -/
abbrev Reading (α : Type) := List Token → Option (α × List Token)

namespace Reading

variable {α : Type}

/-- The tokens of a piece of source that is a whole number of tokens. -/
def lexed (source : String) : List Token := (Token.tokens? source.toList).getD []

/-- What follows the expected tokens. -/
def expect : (expected tokens : List Token) → Option (List Token)
  | [], tokens => some tokens
  | _ :: _, [] => none
  | e :: expected, t :: tokens => if e = t then expect expected tokens else none

/-- What follows the first occurrence of the expected tokens. -/
def behind (expected : List Token) : List Token → Option (List Token)
  | [] => none
  | t :: tokens =>
    match expect expected (t :: tokens) with
    | some rest => some rest
    | none => behind expected tokens

/-- The text of a literal. -/
def text : Reading Text
  | .text t :: rest => some (t, rest)
  | _ => none

/-- A text that may be absent. -/
def optionalText (tokens : List Token) : Option (Option Text × List Token) :=
  match expect (lexed "None") tokens with
  | some rest => some (none, rest)
  | none => do
    let rest ← expect (lexed "Some(") tokens
    let (t, rest) ← text rest
    let rest ← expect (lexed ")") rest
    return (some t, rest)

/-- The items of a list up to its bracket, with commas between them. -/
def items (read : Reading α) (tokens : List Token) : Option (List α × List Token) :=
  match tokens with
  | .mark ']' :: rest => some ([], rest)
  | tokens =>
    match read tokens with
    | some (a, .mark ',' :: rest) =>
      -- An item takes a token at least, or the reading would not end.
      if rest.length < tokens.length then (items read rest).map fun r => (a :: r.1, r.2) else none
    | some (a, .mark ']' :: rest) => some ([a], rest)
    | _ => none
termination_by tokens.length

/-- A list of items behind a reference mark. -/
def list (read : Reading α) : Reading (List α) := fun tokens => do
  let rest ← expect (lexed "&[") tokens
  items read rest

/-- A key and what stands behind it, in parentheses. -/
def entry (read : Reading α) : Reading (Text × α) := fun tokens => do
  let rest ← expect (lexed "(") tokens
  let (key, rest) ← text rest
  let rest ← expect (lexed ",") rest
  let (value, rest) ← read rest
  let rest ← expect (lexed ")") rest
  return ((key, value), rest)

/-- A text that may be absent, behind the name of its field and with a comma behind it. -/
def field (name : String) : Reading (Option Text) := fun tokens => do
  let rest ← expect (lexed name) tokens
  let rest ← expect (lexed ":") rest
  let (t, rest) ← optionalText rest
  let rest ← expect (lexed ",") rest
  return (t, rest)

/-- The texts of a property. -/
def fields : Reading Fields := fun tokens => do
  let rest ← expect (lexed "PropertyFields \x7b") tokens
  let (grammar, rest) ← field "syntax" rest
  let (cssExample, rest) ← field "css_example" rest
  let (secondExample, rest) ← field "secondary_example" rest
  let rest ← expect (lexed "\x7d") rest
  return (⟨grammar, cssExample, secondExample⟩, rest)

/-- A table behind its declaration. -/
def table (declaration : String) (read : Reading α) : Reading (List (Text × α)) := fun tokens => do
  let rest ← expect (lexed declaration) tokens
  let (entries, rest) ← list (entry read) rest
  let rest ← expect (lexed ";") rest
  return (entries, rest)

end Reading

open Reading

/-- The tables that the tokens of a source file declare, and the tokens behind them. -/
def ofTokens? : Reading StaticTables := fun tokens => do
  let rest ← behind (lexed "const BASE_URL: &str =") tokens
  let (baseUrl, rest) ← text rest
  let rest ← expect (lexed ";") rest
  let (typeUrls, rest) ← table "pub static TYPE_URLS: &[(&str, &str)] =" text rest
  let (propertyFiles, rest) ← table "pub static PROPERTY_FILES: &[(&str, &str)] =" text rest
  let (values, rest) ←
    table "pub static ENUM_VALUES: &[(&str, &[(&str, &str)])] =" (list (entry text)) rest
  let (fields, rest) ←
    table "pub static PROPERTY_FIELDS: &[(&str, PropertyFields)] =" Reading.fields rest
  let (seeAlso, rest) ← table "pub static SEE_ALSO: &[(&str, &[&str])] =" (list text) rest
  return ({ baseUrl, typeUrls, propertyFiles, values, fields, seeAlso }, rest)

/-- The tables that a source file declares, and the tokens behind them. -/
def ofSource? (t : Text) : Option (StaticTables × List Token) := (Token.tokens? t).bind ofTokens?

end StyleDocs.StaticTables
