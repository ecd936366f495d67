import StyleDocs.Json.Printer
import StyleDocs.Json.Reader
import StyleDocs.Reference

/-!
# The reference as JSON

The reference is written as an object with a member for each of its tables. An entry leaves out what
it does not have, and what is left out reads as absent. The reader takes objects with members in any
order and skips members it does not know; a member it knows may not be repeated, while of a repeated
key of a table the last counts. An object of known members may also stand as the list of their
values.
-/

namespace StyleDocs.Json

/-! ### Writing -/

/-- A member that is left out when it is absent. -/
def optional (name : String) (t : Option Text) : List (Text × Value) :=
  match t with
  | some t => [(name.toList, .ofText t)]
  | none => []

/-- A member that is left out when its list is empty. -/
def unlessEmpty (name : String) (items : List Value) : List (Text × Value) :=
  if items.isEmpty then [] else [(name.toList, .array items)]

/-- A value with its description. -/
def ofPair (pair : Text × Text) : Value :=
  .ofMembers [("value".toList, .ofText pair.1), ("description".toList, .ofText pair.2)]

/-- An entry. -/
def ofEntry (entry : Entry) : Value :=
  .ofMembers (unlessEmpty "values" (entry.values.map ofPair)
    ++ optional "syntax" entry.grammar
    ++ optional "css_example" entry.cssExample
    ++ optional "secondary_example" entry.secondExample
    ++ unlessEmpty "see_also" (entry.seeAlso.map .ofText))

/-- A table of texts. -/
def ofTexts (table : Table Text) : Value :=
  .ofMembers (table.entries.map fun e => (e.1, .ofText e.2))

/-- The whole reference. -/
def ofReference (ref : Reference) : Value :=
  .ofMembers
    [("base_url".toList, .ofText ref.baseUrl),
     ("type_urls".toList, ofTexts ref.typeUrls),
     ("property_files".toList, ofTexts ref.propertyFiles),
     ("properties".toList, .ofMembers (ref.properties.entries.map fun e => (e.1, ofEntry e.2)))]

/-- A record, with a member for each of its fields. -/
def ofRecord (record : PropertyRecord) : Value :=
  let optionalText (t : Option Text) : Value := t.elim .null .ofText
  .ofMembers
    [("enum_values".toList,
        .array (record.values.pairs.map fun p => .array [.ofText p.1, .ofText p.2])),
     ("syntax".toList, optionalText record.grammar),
     ("css_example".toList, optionalText record.cssExample),
     ("secondary_example".toList, optionalText record.secondExample),
     ("see_also".toList, .array (record.seeAlso.map .ofText))]

/-! ### Reading -/

/-- The text that a value denotes. -/
def Value.text? : Value → Option Text
  | .string s => Json.text? s
  | _ => none

/-- The text that a value denotes, absent when it is null. -/
def Value.optionalText? : Value → Option (Option Text)
  | .null => some none
  | v => v.text?.map some

/-- The items of a list, each read on its own. -/
def Value.list? {α : Type} (read : Value → Option α) : Value → Option (List α)
  | .array items => items.mapM read
  | _ => none

/-- The members of an object under names that denote texts. -/
def namedMembers? (members : List (Str × Value)) : Option (List (Text × Value)) :=
  members.mapM fun m => (Json.text? m.1).map fun name => (name, m.2)

/-- The members of an object of which each of the names occurs once at most, other members left
out. -/
def knownMembers? (names : List Text) (members : List (Str × Value)) :
    Option (List (Text × Value)) :=
  match namedMembers? members with
  | none => none
  | some members =>
    let known := members.filter fun m => names.contains m.1
    if (known.map Prod.fst).Nodup then some known else none

/-- The values of known members in the order of their names: those of an object by name, those of a
list by place. A member that is missing has no value. -/
def fields? (names : List Text) : Value → Option (List (Option Value))
  | .object members =>
    (knownMembers? names members).map fun known =>
      names.map fun name => (known.find? fun m => m.1 == name).map Prod.snd
  | .array items =>
    if items.length ≤ names.length then
      some (items.map some ++ List.replicate (names.length - items.length) none)
    else none
  | _ => none

/-- Read a member that has to be there. -/
def required {α : Type} (read : Value → Option α) (field : Option Value) : Option α :=
  field.bind read

/-- Read a member that may be missing. -/
def orElse {α : Type} (absent : α) (read : Value → Option α) : Option Value → Option α
  | none => some absent
  | some v => read v

/-- A table with a value under each key; of a repeated key the last counts. -/
def table? {α : Type} (read : Value → Option α) : Value → Option (Table α)
  | .object members =>
    ((namedMembers? members).bind fun members =>
      members.mapM fun m => (read m.2).map fun a => (m.1, a)).map Table.ofList
  | _ => none

/-- A value with its description. -/
def pair? (v : Value) : Option (Text × Text) :=
  match fields? ["value".toList, "description".toList] v with
  | some [value, description] =>
    (required Value.text? value).bind fun value =>
      (required Value.text? description).map fun description => (value, description)
  | _ => none

/-- The names of the members of an entry. -/
def entryNames : List Text :=
  ["values".toList, "syntax".toList, "css_example".toList, "secondary_example".toList,
    "see_also".toList]

/-- An entry. -/
def entry? (v : Value) : Option Entry :=
  match fields? entryNames v with
  | some [values, grammar, css, second, related] => do
    let values ← orElse [] (Value.list? pair?) values
    let grammar ← orElse none Value.optionalText? grammar
    let css ← orElse none Value.optionalText? css
    let second ← orElse none Value.optionalText? second
    let related ← orElse [] (Value.list? Value.text?) related
    return { values, grammar, cssExample := css, secondExample := second, seeAlso := related }
  | _ => none

/-- The names of the members of a reference. -/
def referenceNames : List Text :=
  ["base_url".toList, "type_urls".toList, "property_files".toList, "properties".toList]

/-- The whole reference. -/
def reference? (v : Value) : Option Reference :=
  match fields? referenceNames v with
  | some [baseUrl, types, files, properties] => do
    let baseUrl ← required Value.text? baseUrl
    let typeUrls ← required (table? Value.text?) types
    let propertyFiles ← required (table? Value.text?) files
    let properties ← required (table? entry?) properties
    return { baseUrl, typeUrls, propertyFiles, properties }
  | _ => none

end StyleDocs.Json

namespace StyleDocs.Reference

/-- The reference as a JSON text that ends with a line feed. -/
def toJson (ref : Reference) : Text := Json.print 0 (Json.ofReference ref) ++ ['\n']

/-- The reference that a JSON text describes. -/
def ofJson? (t : Text) : Option Reference := (Json.parse t).bind Json.reference?

end StyleDocs.Reference
