import StyleDocs.Path
import StyleDocs.Text.Blank

/-!
# Conventions of a documentation tree

Everything the library assumes about a tree of documents and about the site that shows it is a
value: where property and type documents lie, how sections are headed, which labels code carries,
and the address under which pages are found. A tree with other habits needs other conventions and no
other code.
-/

namespace StyleDocs

/-- The headings of the sections that are read, apart from the second language's. -/
structure Headings where
  /-- Heading of the grammar of a property. -/
  grammar : Text := "Syntax".toList
  /-- Heading of the style sheet example. -/
  css : Text := "CSS".toList
  /-- Heading of the list of related properties. -/
  seeAlso : Text := "See also".toList
  deriving DecidableEq, Repr

/-- The language in which a property document gives its second example. -/
structure SecondLanguage where
  /-- Heading of the section. -/
  heading : Text := "Python".toList
  /-- Labels of the code that counts. -/
  labels : List Text := ["python".toList, "py".toList]
  deriving DecidableEq, Repr

/-- The site whose pages links point to. -/
def defaultBaseUrl : Text := "https://textual.textualize.io/".toList

/-- The repository that holds the documents. -/
def defaultRepository : Text := "https://github.com/Textualize/textual.git".toList

/-- The habits of a documentation tree. -/
structure Conventions where
  /-- Directory that holds the property and the type documents. -/
  root : Text := "docs".toList
  /-- Directory of the property documents below `root`, searched at any depth. -/
  propertyDirectory : Text := "styles".toList
  /-- Directory of the type documents below `root`, not searched deeper. -/
  typeDirectory : Text := "css_types".toList
  /-- Extension of documents, without the dot. -/
  extension : Text := "md".toList
  /-- Names of documents that describe no property. -/
  reserved : List Text := ["_template".toList, "index".toList]
  /-- Address of the site. -/
  baseUrl : Text := defaultBaseUrl
  /-- Headings of the sections. -/
  headings : Headings := {}
  /-- Labels of the style sheet code that counts. -/
  cssLabels : List Text := ["css".toList]
  /-- The second language. -/
  second : SecondLanguage := {}
  /-- Mark of the lines that include another file. -/
  includeMark : Text := "--8<--".toList
  deriving DecidableEq, Repr

namespace Conventions

/-- An address with a slash at its end. -/
def closed (url : Text) : Text := if url.getLast? = some '/' then url else url ++ ['/']

/-- A closed address ends with a slash. -/
theorem getLast?_closed (url : Text) : (closed url).getLast? = some '/' := by
  unfold closed
  split
  · assumption
  · simp

/-- An address without white space around it and with a slash at its end. -/
def normalUrl (url : Text) : Text := closed (Text.strip url)

/-- Point the links to another site. -/
def withBaseUrl (conv : Conventions) (url : Text) : Conventions :=
  { conv with baseUrl := normalUrl url }

/-- Where the property documents lie. -/
def propertyRoot (conv : Conventions) : Text := Path.join conv.root conv.propertyDirectory

/-- Where the type documents lie. -/
def typeRoot (conv : Conventions) : Text := Path.join conv.root conv.typeDirectory

/-- The page of a type. -/
def typeUrl (conv : Conventions) (name : Text) : Text :=
  conv.baseUrl ++ conv.typeDirectory ++ ['/'] ++ name ++ ['/']

/-- The page of the property document with a path below the root. -/
def propertyUrl (conv : Conventions) (path : Text) : Text := conv.baseUrl ++ path ++ ['/']

/-- The document with a path below the root, as a path to be read. -/
def documentFile (conv : Conventions) (path : Text) : Text :=
  Path.join conv.root (path ++ ['.'] ++ conv.extension)

end Conventions

end StyleDocs
