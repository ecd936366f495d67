import StyleDocs.Reference

/-!
# Static tables

For programs that cannot read files at run time the reference is published as static tables: sorted
lists that are searched by bisection. An entry of the reference is spread over three of them, and a
table lists only the properties that have something to put in it.
-/

namespace StyleDocs

/-- The texts of an entry that occur once at most. -/
structure Fields where
  /-- The grammar of the property. -/
  grammar : Option Text
  /-- The style sheet example. -/
  cssExample : Option Text
  /-- The example in the second language. -/
  secondExample : Option Text
  deriving DecidableEq, Repr

/-- Whether there is any text. -/
def Fields.any (fields : Fields) : Bool :=
  fields.grammar.isSome || fields.cssExample.isSome || fields.secondExample.isSome

/-- The texts of an entry that occur once at most. -/
def Entry.fields (entry : Entry) : Fields :=
  ⟨entry.grammar, entry.cssExample, entry.secondExample⟩

/-- The published tables, each in ascending order of its keys. -/
structure StaticTables where
  /-- Address of the site. -/
  baseUrl : Text
  /-- The pages of the types. -/
  typeUrls : List (Text × Text)
  /-- The paths of the property documents. -/
  propertyFiles : List (Text × Text)
  /-- The values of the properties that have any. -/
  values : List (Text × List (Text × Text))
  /-- The texts of the properties that have any. -/
  fields : List (Text × Fields)
  /-- The related properties of the properties that have any. -/
  seeAlso : List (Text × List Text)
  deriving DecidableEq, Repr

namespace StaticTables

variable {α : Type}

/-- The entries of a reference with something in a part of them, under their keys. -/
def select (part : Entry → α) (keep : α → Bool) (ref : Reference) : List (Text × α) :=
  (ref.properties.entries.map fun e => (e.1, part e.2)).filter fun e => keep e.2

/-- The static tables of a reference. -/
def ofReference (ref : Reference) : StaticTables where
  baseUrl := ref.baseUrl
  typeUrls := ref.typeUrls.entries
  propertyFiles := ref.propertyFiles.entries
  values := select (·.values) (fun values => !values.isEmpty) ref
  fields := select Entry.fields Fields.any ref
  seeAlso := select (·.seeAlso) (fun related => !related.isEmpty) ref

/-- Search ascending entries by bisection: the half that cannot hold the key is dropped until one
entry is left. -/
def bisect (key : Text) (entries : List (Text × α)) : Option α :=
  if h : entries.length ≤ 1 then Table.seek key entries
  else
    let half := entries.length / 2
    if (entries.drop half).head?.any fun e => key < e.1 then bisect key (entries.take half)
    else bisect key (entries.drop half)
termination_by entries.length
decreasing_by
  · rw [List.length_take]
    omega
  · rw [List.length_drop]
    omega

/-! ### Queries -/

/-- The values of a property with their descriptions. -/
def valuesOf (tables : StaticTables) (property : Text) : List (Text × Text) :=
  (bisect (Key.property property) tables.values).getD []

/-- The description of a value of a property. -/
def describe (tables : StaticTables) (property value : Text) : Option Text :=
  ValueList.describe (Key.value value) (tables.valuesOf property)

/-- The texts of a property. -/
def fields? (tables : StaticTables) (property : Text) : Option Fields :=
  bisect (Key.property property) tables.fields

/-- The grammar of a property. -/
def grammar (tables : StaticTables) (property : Text) : Option Text :=
  (tables.fields? property).bind (·.grammar)

/-- The style sheet example of a property. -/
def cssExample (tables : StaticTables) (property : Text) : Option Text :=
  (tables.fields? property).bind (·.cssExample)

/-- The example in the second language. -/
def secondExample (tables : StaticTables) (property : Text) : Option Text :=
  (tables.fields? property).bind (·.secondExample)

/-- The properties related to a property. -/
def related (tables : StaticTables) (property : Text) : List Text :=
  (bisect (Key.property property) tables.seeAlso).getD []

/-- The page of a type. -/
def typeUrl? (tables : StaticTables) (name : Text) : Option Text :=
  bisect (Key.property name) tables.typeUrls

/-- The path of the document of a property. -/
def propertyFile? (tables : StaticTables) (name : Text) : Option Text :=
  bisect (Key.file name) tables.propertyFiles

/-- Whether a property has a document. -/
def hasProperty (tables : StaticTables) (name : Text) : Bool :=
  (tables.propertyFile? name).isSome

/-- The page of a property. -/
def propertyUrl? (tables : StaticTables) (name : Text) : Option Text :=
  (tables.propertyFile? name).map fun path => tables.baseUrl ++ path ++ ['/']

end StaticTables

end StyleDocs
