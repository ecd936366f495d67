import StyleDocs.Document
import StyleDocs.Reference
import StyleDocs.Scan

/-!
# Building the reference of a tree

A tree is scanned for its documents, each property document is read in the order of the names, and
the reference is put together from what they say. A document that cannot be read is passed over with
a warning, and one that says nothing contributes nothing; neither ends the run.
-/

namespace StyleDocs.Build

/-- Read the document of a catalogued name. -/
def readDocument (conv : Conventions) (types : TypeCatalog) (properties : PropertyCatalog)
    (tree : FileTree) (name path : Text) : Option PropertyRecord × List Event :=
  let file := conv.documentFile path
  match tree.read file with
  | .error cause => (none, [.documentUnreadable file cause])
  | .ok doc =>
    let record := Document.record conv types properties doc
    let event := Document.event conv name record
    if record.isEmpty then (none, [event, .nothingFound name]) else (some record, [event])

/-- Read the documents of catalogued names, one after the other. -/
def readDocuments (conv : Conventions) (types : TypeCatalog) (properties : PropertyCatalog)
    (tree : FileTree) : List (Text × Text) → List (Text × PropertyRecord) × List Event
  | [] => ([], [])
  | (name, path) :: rest =>
    let (record, events) := readDocument conv types properties tree name path
    let (records, more) := readDocuments conv types properties tree rest
    (record.toList.map (name, ·) ++ records, events ++ more)

/-- The reference of catalogued documents, with what there is to report. -/
def ofCatalogs (conv : Conventions) (types : TypeCatalog) (properties : PropertyCatalog)
    (tree : FileTree) : Reference × List Event :=
  let (records, readEvents) := readDocuments conv types properties tree properties.entries
  let (ref, buildEvents) := Reference.build conv types properties records
  (ref, readEvents ++ .summary types.size properties.size records.length :: buildEvents)

/-- The reference of a tree, with what there is to report. -/
def reference (conv : Conventions) (tree : FileTree) : Reference × List Event :=
  let (types, typeEvents) := Scan.types conv tree
  let (properties, propertyEvents) := Scan.properties conv tree
  let (ref, events) := ofCatalogs conv types properties tree
  (ref, typeEvents ++ propertyEvents ++ events)

end StyleDocs.Build
