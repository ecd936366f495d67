import StyleDocs.Catalog
import StyleDocs.Conventions
import StyleDocs.Wildcard.Listing

/-!
# Scanning a documentation tree

The catalogs are taken from a file tree. Type documents lie directly in their directory, property
documents anywhere below theirs. What is listed is only a set: property documents are visited in the
order of their paths, so that the catalog does not depend on the order in which directories list
their entries. A missing directory gives an empty catalog.
-/

namespace StyleDocs.Scan

/-- The name of the type document in a directory entry, if it is one. -/
def typeDocument? (conv : Conventions) (tree : FileTree) (entry : Text) : Option Text :=
  if tree.isFile (Path.join conv.typeRoot entry)
      && Path.extension? entry == some conv.extension then
    some (Path.stem entry)
  else none

/-- The catalog of the type documents among some directory entries, listed in any order. -/
def typesAmong (conv : Conventions) (tree : FileTree) (entries : List Text) :
    TypeCatalog × List Event :=
  let catalog := TypeCatalog.ofNames (entries.filterMap (typeDocument? conv tree))
  (catalog, [.typesFound catalog.size conv.typeRoot])

/-- The type documents of a tree. -/
def types (conv : Conventions) (tree : FileTree) : TypeCatalog × List Event :=
  match tree.list conv.typeRoot with
  | .error cause => (.empty, [.typesUnreadable conv.typeRoot cause])
  | .ok entries => typesAmong conv tree entries

/-- The pattern of the paths of property documents. -/
def pattern (conv : Conventions) : Text :=
  Wildcard.escape conv.propertyRoot ++ "/**/*.".toList ++ conv.extension

/-- Visit one path and add its document to the catalog. Reserved names are passed over. -/
def visit (conv : Conventions) (catalog : PropertyCatalog) (path : Text) :
    PropertyCatalog × List Event :=
  match Path.fileName? path with
  | none => (catalog, [])
  | some file =>
    let name := Path.stem file
    if conv.reserved.contains name then (catalog, [])
    else match Path.documentPath? conv.root path with
      | none => (catalog, [.outsideRoot path])
      | some document => catalog.add name document

/-- Visit paths one after the other. -/
def visitAll (conv : Conventions) : List Text → PropertyCatalog → PropertyCatalog × List Event
  | [], catalog => (catalog, [])
  | path :: rest, catalog =>
    let (catalog, events) := visit conv catalog path
    let (catalog, more) := visitAll conv rest catalog
    (catalog, events ++ more)

/-- The catalog of the property documents at some paths, listed in any order. -/
def propertiesAt (conv : Conventions) (paths : List Text) : PropertyCatalog × List Event :=
  let (catalog, events) := visitAll conv (Path.sort paths) .empty
  let last : Event :=
    if catalog.isEmpty then .noProperties conv.propertyRoot
    else .propertiesFound catalog.size conv.propertyRoot
  (catalog, events ++ [last])

/-- The property documents of a tree. -/
def properties (conv : Conventions) (tree : FileTree) : PropertyCatalog × List Event :=
  match Wildcard.compile (pattern conv) with
  | .error fault => (.empty, [.patternRefused (pattern conv) fault])
  | .ok components =>
    propertiesAt conv ((Wildcard.listing tree (pattern conv) components).filter tree.isFile)

end StyleDocs.Scan
