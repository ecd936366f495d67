import StyleDocs.StaticTables
import StyleDocs.Text.Quoted

/-!
# Static tables as source

The static tables are written as a source file that needs nothing else: a header, the type of the
texts of a property, the address of the site, the five tables and the functions that query them. All
texts stand in it as quoted literals.
-/

namespace StyleDocs.StaticTables

open Text

/-- Lines of a file, each ended by a line feed. -/
def fileLines (lines : List String) : Text := lines.flatMap fun line => line.toList ++ ['\n']

/-- The beginning of the file. -/
def header : Text := fileLines
  ["// @generated by tcss-docgen from the Textual CSS documentation.",
   "// Do not edit by hand; rerun the generator instead.",
   "",
   "/// Scalar documentation fields of one property.",
   "#[derive(Debug, Clone, Copy)]",
   "pub struct PropertyFields \x7b",
   "    pub syntax: Option<&'static str>,",
   "    pub css_example: Option<&'static str>,",
   "    pub secondary_example: Option<&'static str>,",
   "\x7d",
   ""]

/-- The functions that query the tables, at the end of the file. -/
def queries : Text := fileLines
  ["",
   "fn find<T: Copy>(table: &'static [(&'static str, T)], key: &str) -> Option<T> \x7b",
   "    table",
   "        .binary_search_by(|entry| entry.0.cmp(key))",
   "        .ok()",
   "        .map(|i| table[i].1)",
   "\x7d",
   "",
   "fn property_key(name: &str) -> String \x7b",
   "    name.trim().to_lowercase().replace('_', \"-\")",
   "\x7d",
   "",
   "fn filename_key(name: &str) -> String \x7b",
   "    name.trim().to_lowercase().replace('-', \"_\")",
   "\x7d",
   "",
   "/// Description of one enum value of a property.",
   "pub fn value_description(property: &str, value: &str) -> Option<&'static str> \x7b",
   "    let value = value.trim().to_lowercase();",
   "    enum_values(property)",
   "        .iter()",
   "        .find(|entry| entry.0 == value)",
   "        .map(|entry| entry.1)",
   "\x7d",
   "",
   "/// All enum values of a property in source order.",
   "pub fn enum_values(property: &str) -> &'static [(&'static str, &'static str)] \x7b",
   "    find(ENUM_VALUES, &property_key(property)).unwrap_or(&[])",
   "\x7d",
   "",
   "pub fn syntax(property: &str) -> Option<&'static str> \x7b",
   "    find(PROPERTY_FIELDS, &property_key(property)).and_then(|f| f.syntax)",
   "\x7d",
   "",
   "pub fn css_example(property: &str) -> Option<&'static str> \x7b",
   "    find(PROPERTY_FIELDS, &property_key(property)).and_then(|f| f.css_example)",
   "\x7d",
   "",
   "pub fn secondary_example(property: &str) -> Option<&'static str> \x7b",
   "    find(PROPERTY_FIELDS, &property_key(property)).and_then(|f| f.secondary_example)",
   "\x7d",
   "",
   "/// Related properties; empty when none were recorded.",
   "pub fn see_also(property: &str) -> &'static [&'static str] \x7b",
   "    find(SEE_ALSO, &property_key(property)).unwrap_or(&[])",
   "\x7d",
   "",
   "pub fn type_doc_url(name: &str) -> Option<&'static str> \x7b",
   "    find(TYPE_URLS, &property_key(name))",
   "\x7d",
   "",
   "pub fn property_file(name: &str) -> Option<&'static str> \x7b",
   "    find(PROPERTY_FILES, &filename_key(name))",
   "\x7d",
   "",
   "pub fn has_property_doc(name: &str) -> bool \x7b",
   "    property_file(name).is_some()",
   "\x7d",
   "",
   "pub fn property_doc_url(name: &str) -> Option<String> \x7b",
   "    property_file(name).map(|path| format!(\"\x7b\x7d\x7b\x7d/\", BASE_URL, path))",
   "\x7d"]

/-- The beginning of a table. -/
def tableStart (name type : String) : Text :=
  "pub static ".toList ++ name.toList ++ ": ".toList ++ type.toList ++ " = &[\n".toList

/-- The end of a table. -/
def tableEnd : Text := "];\n".toList

/-- Two literals in parentheses. -/
def pairSource (key value : Text) : Text :=
  "(".toList ++ quote key ++ ", ".toList ++ quote value ++ ")".toList

/-- A table of texts. -/
def textsSource (name : String) (entries : List (Text × Text)) : Text :=
  tableStart name "&[(&str, &str)]"
    ++ (entries.flatMap fun e => "    ".toList ++ pairSource e.1 e.2 ++ ",\n".toList) ++ tableEnd

/-- The values of a property. -/
def valuesEntry (key : Text) (values : List (Text × Text)) : Text :=
  "    (".toList ++ quote key ++ ", &[\n".toList
    ++ (values.flatMap fun v => "        ".toList ++ pairSource v.1 v.2 ++ ",\n".toList)
    ++ "    ]),\n".toList

/-- The table of values. -/
def valuesSource (entries : List (Text × List (Text × Text))) : Text :=
  tableStart "ENUM_VALUES" "&[(&str, &[(&str, &str)])]"
    ++ (entries.flatMap fun e => valuesEntry e.1 e.2) ++ tableEnd

/-- A text that may be absent. -/
def optionSource : Option Text → Text
  | some t => "Some(".toList ++ quote t ++ ")".toList
  | none => "None".toList

/-- The texts of a property. -/
def fieldsEntry (key : Text) (fields : Fields) : Text :=
  "    (".toList ++ quote key ++ ", PropertyFields \x7b\n".toList
    ++ "        syntax: ".toList ++ optionSource fields.grammar ++ ",\n".toList
    ++ "        css_example: ".toList ++ optionSource fields.cssExample ++ ",\n".toList
    ++ "        secondary_example: ".toList ++ optionSource fields.secondExample ++ ",\n".toList
    ++ "    \x7d),\n".toList

/-- The table of texts of properties. -/
def fieldsSource (entries : List (Text × Fields)) : Text :=
  tableStart "PROPERTY_FIELDS" "&[(&str, PropertyFields)]"
    ++ (entries.flatMap fun e => fieldsEntry e.1 e.2) ++ tableEnd

/-- The related properties of a property. -/
def seeAlsoEntry (key : Text) (related : List Text) : Text :=
  "    (".toList ++ quote key ++ ", &[".toList
    ++ joinWith ", ".toList (related.map quote) ++ "]),\n".toList

/-- The table of related properties. -/
def seeAlsoSource (entries : List (Text × List Text)) : Text :=
  tableStart "SEE_ALSO" "&[(&str, &[&str])]"
    ++ (entries.flatMap fun e => seeAlsoEntry e.1 e.2) ++ tableEnd

/-- The source file of static tables. -/
def source (tables : StaticTables) : Text :=
  header
    ++ "pub const BASE_URL: &str = ".toList ++ quote tables.baseUrl ++ ";\n\n".toList
    ++ textsSource "TYPE_URLS" tables.typeUrls ++ ['\n']
    ++ textsSource "PROPERTY_FILES" tables.propertyFiles ++ ['\n']
    ++ valuesSource tables.values ++ ['\n']
    ++ fieldsSource tables.fields ++ ['\n']
    ++ seeAlsoSource tables.seeAlso
    ++ queries

end StyleDocs.StaticTables
