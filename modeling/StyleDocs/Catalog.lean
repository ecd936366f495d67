import StyleDocs.Event
import StyleDocs.Table

/-!
# Catalogs of documents

The type catalog holds the names of the documented types, written with hyphens. The property catalog
leads from the name of a property document, as its file spells it, to the path of the document below
the root. When two documents have one name the later takes the place of the earlier, and the event
names both.
-/

namespace StyleDocs

/-- A type name with hyphens for underscores. -/
def typeName (name : Text) : Text := Text.replaceChar '_' '-' name

/-- The names of the documented types. -/
abbrev TypeCatalog := Table Unit

namespace TypeCatalog

/-- The catalog of some names, in any spelling and order. -/
def ofNames (names : List Text) : TypeCatalog :=
  Table.ofList (names.map fun name => (typeName name, ()))

/-- Whether a type is documented. -/
def documents (types : TypeCatalog) (name : Text) : Bool := types.has (typeName name)

end TypeCatalog

/-- The paths of the property documents by their names. -/
abbrev PropertyCatalog := Table Text

namespace PropertyCatalog

/-- Add a document and report the one whose place it takes. -/
def add (catalog : PropertyCatalog) (name path : Text) : PropertyCatalog × List Event :=
  (catalog.insert name path,
    match catalog.get? name with
    | some replaced => [.nameCollision name path replaced]
    | none => [])

end PropertyCatalog

end StyleDocs
