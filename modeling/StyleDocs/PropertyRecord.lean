import StyleDocs.ValueList

/-!
# Records of property documents

A record holds what one property document says, in whatever form it is published later.
-/

namespace StyleDocs

/-- What one property document says. -/
structure PropertyRecord where
  /-- The values of the property. -/
  values : ValueList := .empty
  /-- The grammar of the property, with its links resolved. -/
  grammar : Option Text := none
  /-- The style sheet example. -/
  cssExample : Option Text := none
  /-- The example in the second language. -/
  secondExample : Option Text := none
  /-- The texts of the links to related properties, in order and with repeats. -/
  seeAlso : List Text := []
  deriving DecidableEq, Inhabited

/-- Whether the document says nothing. -/
def PropertyRecord.isEmpty (record : PropertyRecord) : Bool :=
  record.values.isEmpty && record.grammar.isNone && record.cssExample.isNone
    && record.secondExample.isNone && record.seeAlso.isEmpty

end StyleDocs
