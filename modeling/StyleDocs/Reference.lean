import StyleDocs.Catalog
import StyleDocs.Conventions
import StyleDocs.Key
import StyleDocs.PropertyRecord

/-!
# The property reference

The reference is what a run publishes: the address of the site, the pages of the types, the paths of
the property documents and what the documents say, each in a table under folded keys. It is put
together from the catalogs and the records of the documents. Names that fold to one key collide; the
later one stays and the event says so.
-/

namespace StyleDocs

/-- What is published of one property document. -/
structure Entry where
  /-- The values with their descriptions, in order. -/
  values : List (Text × Text) := []
  /-- The grammar of the property. -/
  grammar : Option Text := none
  /-- The style sheet example. -/
  cssExample : Option Text := none
  /-- The example in the second language. -/
  secondExample : Option Text := none
  /-- The related properties, in order and with repeats. -/
  seeAlso : List Text := []
  deriving DecidableEq, Inhabited, Repr

/-- Publish a record: values are folded to lower case, and of the values that fold together the
first gives the place and the last the description. -/
def Entry.ofRecord (record : PropertyRecord) : Entry where
  values :=
    (ValueList.ofPairs (record.values.pairs.map fun pair => (Text.lower pair.1, pair.2))).pairs
  grammar := record.grammar
  cssExample := record.cssExample
  secondExample := record.secondExample
  seeAlso := record.seeAlso

/-- Whether the entry says nothing. -/
def Entry.isEmpty (entry : Entry) : Bool :=
  entry.values.isEmpty && entry.grammar.isNone && entry.cssExample.isNone
    && entry.secondExample.isNone && entry.seeAlso.isEmpty

/-- The published tables. -/
structure Reference where
  /-- Address of the site. -/
  baseUrl : Text := []
  /-- The pages of the types. -/
  typeUrls : Table Text := .empty
  /-- The paths of the property documents below the root, by file key. -/
  propertyFiles : Table Text := .empty
  /-- What the documents say, by property key. -/
  properties : Table Entry := .empty
  deriving DecidableEq, Inhabited

namespace Reference

/-- The pages of the types in a catalog. -/
def typePages (conv : Conventions) (types : TypeCatalog) : Table Text :=
  Table.ofList (types.keys.map fun name =>
    let key := Text.lower name
    (key, conv.typeUrl key))

/-- Add a document to the table of files and report the one whose place it takes. -/
def addFile (name path : Text) (files : Table Text) : Table Text × List Event :=
  let key := Text.lower name
  (files.insert key path,
    match files.get? key with
    | some replaced => [.nameCollision key path replaced]
    | none => [])

/-- Add the documents of a catalog, in the order of their names. -/
def addFiles : List (Text × Text) → Table Text → Table Text × List Event
  | [], files => (files, [])
  | (name, path) :: rest, files =>
    let (files, events) := addFile name path files
    let (files, more) := addFiles rest files
    (files, events ++ more)

/-- Add what a document says and report a property that is described already. -/
def addRecord (name : Text) (record : PropertyRecord) (entries : Table Entry) :
    Table Entry × List Event :=
  let key := Key.property name
  (entries.insert key (.ofRecord record),
    if entries.has key then [.documentedTwice key name] else [])

/-- Add what the documents say, in their order. -/
def addRecords : List (Text × PropertyRecord) → Table Entry → Table Entry × List Event
  | [], entries => (entries, [])
  | (name, record) :: rest, entries =>
    let (entries, events) := addRecord name record entries
    let (entries, more) := addRecords rest entries
    (entries, events ++ more)

/-- Put the reference together from the catalogs and the records, each with the name of its
document. -/
def build (conv : Conventions) (types : TypeCatalog) (properties : PropertyCatalog)
    (records : List (Text × PropertyRecord)) : Reference × List Event :=
  let (files, fileEvents) := addFiles properties.entries .empty
  let (entries, recordEvents) := addRecords records .empty
  ({ baseUrl := conv.baseUrl, typeUrls := typePages conv types, propertyFiles := files,
     properties := entries }, fileEvents ++ recordEvents)

/-! ### Queries -/

/-- The entry of a property. -/
def entry? (ref : Reference) (property : Text) : Option Entry :=
  ref.properties.get? (Key.property property)

/-- The description of a value of a property. -/
def describe (ref : Reference) (property value : Text) : Option Text :=
  (ref.entry? property).bind fun entry => ValueList.describe (Key.value value) entry.values

/-- The values of a property with their descriptions. -/
def values (ref : Reference) (property : Text) : List (Text × Text) :=
  match ref.entry? property with
  | some entry => entry.values
  | none => []

/-- The grammar of a property. -/
def grammar (ref : Reference) (property : Text) : Option Text :=
  (ref.entry? property).bind (·.grammar)

/-- The style sheet example of a property. -/
def cssExample (ref : Reference) (property : Text) : Option Text :=
  (ref.entry? property).bind (·.cssExample)

/-- The example in the second language. -/
def secondExample (ref : Reference) (property : Text) : Option Text :=
  (ref.entry? property).bind (·.secondExample)

/-- The properties related to a property. -/
def seeAlso (ref : Reference) (property : Text) : List Text :=
  match ref.entry? property with
  | some entry => entry.seeAlso
  | none => []

/-- The page of a type. -/
def typeUrl? (ref : Reference) (name : Text) : Option Text :=
  ref.typeUrls.get? (Key.property name)

/-- The path of the document of a property below the root. -/
def propertyFile? (ref : Reference) (name : Text) : Option Text :=
  ref.propertyFiles.get? (Key.file name)

/-- Whether a property has a document. -/
def hasProperty (ref : Reference) (name : Text) : Bool := (ref.propertyFile? name).isSome

/-- The page of a property. -/
def propertyUrl? (ref : Reference) (name : Text) : Option Text :=
  (ref.propertyFile? name).map fun path => ref.baseUrl ++ path ++ ['/']

end Reference

end StyleDocs
