import StyleDocs.Reference.Json
import StyleDocs.StaticTables.Source

/-!
# Output formats

A reference is published in one of two forms, each a file with a name of its own: a JSON text that
is read back at run time, or the source of static tables.
-/

namespace StyleDocs

/-- The forms in which a reference is published. -/
inductive OutputFormat where
  /-- A JSON text. -/
  | json
  /-- The source of static tables. -/
  | tables
  deriving DecidableEq, Repr

namespace OutputFormat

/-- The format that a name asks for. -/
def ofName? (name : Text) : Option OutputFormat :=
  if name = "rust".toList || name = "rs".toList then some .tables
  else if name = "json".toList then some .json
  else none

/-- The answer to a name that asks for no format. -/
def unknownMessage (name : Text) : Text :=
  "unknown format: ".toList ++ name ++ ". Use rust or json".toList

/-- The name of the file. -/
def fileName : OutputFormat → Text
  | .json => "tcss_docs.json".toList
  | .tables => "tcss_docs.rs".toList

/-- The content of the file. -/
def render (format : OutputFormat) (ref : Reference) : Text :=
  match format with
  | .json => ref.toJson
  | .tables => (StaticTables.ofReference ref).source

end OutputFormat

end StyleDocs
