import StyleDocs.Catalog
import StyleDocs.Conventions
import StyleDocs.Text.Segment

/-!
# Links between documents

A document links to a type with the type's name in angle brackets and a path that climbs to the type
directory, and to a property with the property's name and a path in its own directory. Resolving the
links of a text writes an anchor to the page of the target where the target is documented, and the
bare visible text where it is not. Type links are resolved first, property links in what that
leaves.
-/

namespace StyleDocs.Link

open Text

/-- A link as written: its visible text and the name of its target document. -/
structure Written where
  /-- The text between the brackets. -/
  visible : Text
  /-- The name of the document, without its extension. -/
  target : Text
  deriving DecidableEq, Repr

/-- Whether names of documents in links are made of this character. -/
def isTargetChar (c : Char) : Bool := c.isAlphanum || c == '_' || c == '-'

/-- Whether the visible name of a property is made of this character. -/
def isPropertyChar (c : Char) : Bool := c.isLower || c.isDigit || c == '-'

/-- The text behind one character of a kind. -/
def afterChar? (p : Char → Bool) : Text → Option Text
  | [] => none
  | c :: cs => if p c then some cs else none

/-- The text behind the longest run of characters of a kind, if there is at least one. -/
def afterRun? (p : Char → Bool) (t : Text) : Option Text := (afterChar? p t).map (·.dropWhile p)

/-- A name in angle brackets. -/
def afterTypeName? (t : Text) : Option Text :=
  ((after? ['<'] t).bind (afterRun? isTargetChar)).bind (after? ['>'])

/-- A property name: a small letter, then small letters, digits and hyphens. -/
def afterPropertyName? (t : Text) : Option Text :=
  (afterChar? Char.isLower t).map (·.dropWhile isPropertyChar)

/-- Skip a backquote if there is one. -/
def skipBackquote (t : Text) : Text := (after? [backquote] t).getD t

/-- The text between the opening bracket and the end of a visible name, which may stand between
backquotes, and what follows the closing bracket. -/
def label? (afterName? : Text → Option Text) (t : Text) : Option (Text × Text) :=
  match (after? ['['] t) with
  | none => none
  | some inner =>
    match afterName? (skipBackquote inner) with
    | none => none
    | some rest =>
      let rest := skipBackquote rest
      (after? [']'] rest).map fun behind => (inner.take (inner.length - rest.length), behind)

/-- The end of a target: a name, the extension and the closing parenthesis, with a fragment before
it or not. -/
def targetEnd? (extension : Text) (t : Text) : Option (Text × Text) :=
  let name := t.takeWhile isTargetChar
  if name.isEmpty then none
  else match after? ('.' :: extension) (t.dropWhile isTargetChar) with
    | none => none
    | some rest =>
      let rest :=
        match rest with
        | '#' :: fragment => fragment.dropWhile fun c => c != ')' && !isBlank c
        | _ => rest
      (after? [')'] rest).map fun behind => (name, behind)

/-- The places behind one or more steps up at the front of a text, the one behind the most first. -/
def climbs : Nat → Text → List Text
  | 0, _ => []
  | fuel + 1, t =>
    match after? "../".toList t with
    | none => []
    | some rest => climbs fuel rest ++ [rest]

/-- A link to a type. -/
def typeLink (conv : Conventions) : Pattern Written := fun t =>
  match label? afterTypeName? t with
  | none => none
  | some (visible, behind) =>
    match after? ['('] behind with
    | none => none
    | some path =>
      ((climbs path.length path).findSome? fun place =>
        (after? (conv.typeDirectory ++ ['/']) place).bind (targetEnd? conv.extension)).map
          fun (name, rest) => (⟨visible, name⟩, rest)

/-- A link to a property. -/
def propertyLink (conv : Conventions) : Pattern Written := fun t =>
  match label? afterPropertyName? t with
  | none => none
  | some (visible, behind) =>
    ((after? "(./".toList behind).bind (targetEnd? conv.extension)).map
      fun (name, rest) => (⟨visible, name⟩, rest)

/-- An anchor with an address and a visible text. -/
def anchor (url visible : Text) : Text :=
  "<a href=\"".toList ++ url ++ "\">".toList ++ visible ++ "</a>".toList

/-- What is written for a link to a type. -/
def typeImage (conv : Conventions) (types : TypeCatalog) (link : Written) : Text :=
  let name := typeName link.target
  if types.documents name then anchor (conv.typeUrl name) link.visible else link.visible

/-- What is written for a link to a property. -/
def propertyImage (conv : Conventions) (properties : PropertyCatalog) (link : Written) : Text :=
  match properties.get? link.target with
  | some path => anchor (conv.propertyUrl path) link.visible
  | none => link.visible

/-- Resolve the links to types and then the links to properties. -/
def resolve (conv : Conventions) (types : TypeCatalog) (properties : PropertyCatalog)
    (t : Text) : Text :=
  substitute (propertyLink conv) (propertyImage conv properties)
    (substitute (typeLink conv) (typeImage conv types) t)

example : resolve {} (TypeCatalog.ofNames ["color".toList]) .empty
    "[`<color>`](../../css_types/color.md) [a](./a.md#x)".toList =
    "<a href=\"https://textual.textualize.io/css_types/color/\">`<color>`</a> a".toList := by
  decide

end StyleDocs.Link
