import StyleDocs.Link
import StyleDocs.Markdown.Cleanup
import StyleDocs.Markdown.CodeBlock
import StyleDocs.Markdown.InlineLink
import StyleDocs.Markdown.Section
import StyleDocs.Markdown.ValueTable
import StyleDocs.PropertyRecord
import StyleDocs.Text.LowerCase

/-!
# Reading a property document

A document is read in five passes that do not depend on one another: the values of its tables, the
grammar, the two examples and the related properties. No pass fails; a document without anything to
recover gives the empty record.
-/

namespace StyleDocs.Document

open Markdown

/-- The grammar of the property with its links resolved, if it has any. -/
def grammar? (conv : Conventions) (types : TypeCatalog) (properties : PropertyCatalog)
    (doc : Text) : Option Text :=
  match section? doc conv.headings.grammar with
  | none => none
  | some body =>
    let cleaned := grammarText conv.includeMark body
    if cleaned.isEmpty then none else some (Link.resolve conv types properties cleaned)

/-- The example under a heading in code with one of the labels. -/
def exampleUnder? (heading : Text) (labels : List Text) (doc : Text) : Option Text :=
  (section? doc heading).bind (example? labels)

/-- The texts of the links to related properties. -/
def seeAlso (conv : Conventions) (doc : Text) : List Text :=
  match section? doc conv.headings.seeAlso with
  | none => []
  | some body => linkLabels body

/-- The record of a document. -/
def record (conv : Conventions) (types : TypeCatalog) (properties : PropertyCatalog)
    (doc : Text) : PropertyRecord where
  values := valueTable doc
  grammar := grammar? conv types properties doc
  cssExample := exampleUnder? conv.headings.css conv.cssLabels doc
  secondExample := exampleUnder? conv.second.heading conv.second.labels doc
  seeAlso := seeAlso conv doc

/-- What is reported of a document that was read. -/
def event (conv : Conventions) (name : Text) (record : PropertyRecord) : Event :=
  .documentRead name record.values.size record.grammar.isSome record.cssExample.isSome
    (Text.lower conv.second.heading) record.secondExample.isSome record.seeAlso.length

end StyleDocs.Document
