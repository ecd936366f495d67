import StyleDocs.Text

/-!
# Wildcard patterns

A pattern stands for a class of names. A question mark stands for one character, a star for any
characters, brackets for one character of a set or, behind an exclamation mark, outside it, and two
stars as a whole component for any directories. Not every text is a pattern: three stars in a row,
two stars beside anything but a slash, and an open bracket without its partner are refused with the
position of the fault. A text in which the special characters are bracketed stands for itself.
-/

namespace StyleDocs.Wildcard

/-- A member of a bracketed set. -/
inductive Spec where
  /-- One character. -/
  | one (c : Char)
  /-- The characters from the first to the last. -/
  | range (first last : Char)
  deriving DecidableEq, Repr

/-- Whether the member covers the character. -/
def Spec.covers (c : Char) : Spec → Bool
  | .one d => c == d
  | .range first last => first ≤ c && c ≤ last

/-- The parts of a pattern. -/
inductive Part where
  /-- The character itself. -/
  | char (c : Char)
  /-- Any one character. -/
  | any
  /-- Any characters. -/
  | run
  /-- Any directories. -/
  | deep
  /-- One character of the set. -/
  | within (set : List Spec)
  /-- One character outside the set. -/
  | except (set : List Spec)
  deriving DecidableEq, Repr

/-- The faults of a pattern, with the position of the character that shows them. -/
inductive Fault where
  /-- More than two stars in a row. -/
  | stars (position : Nat)
  /-- Two stars that do not fill a component. -/
  | recursion (position : Nat)
  /-- An open bracket without its partner. -/
  | bracket (position : Nat)
  deriving DecidableEq, Repr

/-- The words for a fault. -/
def Fault.message (fault : Fault) : Text :=
  let (position, words) : Nat × String :=
    match fault with
    | .stars p => (p, "wildcards are either regular `*` or recursive `**`")
    | .recursion p => (p, "recursive wildcards must form a single path component")
    | .bracket p => (p, "invalid range pattern")
  "Pattern syntax error near position ".toList ++ Text.ofNat position ++ ": ".toList
    ++ words.toList

/-- The members of a set, read from what stands between its brackets. -/
def specs : List Char → List Spec
  | a :: '-' :: b :: rest => .range a b :: specs rest
  | a :: rest => .one a :: specs rest
  | [] => []

/-- What a character at the front of a text begins: the parts it stands for and how many characters
behind it they take. `position` is the place of the character and `before` the character in front
of it. -/
def partsAt (position : Nat) (before : Option Char) (c : Char) (rest : Text) :
    Except Fault (List Part × Nat) :=
  if c = '?' then .ok ([.any], 0)
  else if c = '*' then
    let more := (rest.takeWhile (· == '*')).length
    match more with
    | 0 => .ok ([.run], 0)
    | 1 =>
      if before.all (· == '/') then
        match rest.drop 1 with
        | [] => .ok ([.deep], 1)
        | d :: _ => if d = '/' then .ok ([.deep], 2) else .error (.recursion (position + 2))
      else .error (.recursion (position - 1))
    | _ => .error (.stars (position + 2))
  else if c = '[' then
    match rest with
    | '!' :: first :: inner =>
      if inner.contains ']' then
        let set := first :: inner.takeWhile (· != ']')
        .ok ([.except (specs set)], set.length + 2)
      else .error (.bracket position)
    | '!' :: _ => .error (.bracket position)
    | first :: inner =>
      if inner.contains ']' then
        let set := first :: inner.takeWhile (· != ']')
        .ok ([.within (specs set)], set.length + 1)
      else .error (.bracket position)
    | [] => .error (.bracket position)
  else .ok ([.char c], 0)

/-- The parts of a pattern whose first `skip` characters are read already. -/
def partsFrom (skip position : Nat) (before : Option Char) : Text → Except Fault (List Part)
  | [] => .ok []
  | c :: cs =>
    match skip with
    | skip + 1 => partsFrom skip (position + 1) (some c) cs
    | 0 =>
      match partsAt position before c cs with
      | .error fault => .error fault
      | .ok (parts, taken) =>
        match partsFrom taken (position + 1) (some c) cs with
        | .error fault => .error fault
        | .ok more => .ok (parts ++ more)

/-- The parts of a pattern. -/
def parts (pattern : Text) : Except Fault (List Part) := partsFrom 0 0 none pattern

/-- The text that the parts stand for when they are characters only. -/
def literal? : List Part → Option Text
  | [] => some []
  | .char c :: rest => (literal? rest).map (c :: ·)
  | _ :: _ => none

/-- Whether a part that stands for one character stands for this one. -/
def Part.accepts (c : Char) : Part → Bool
  | .char d => c == d
  | .any => true
  | .within set => set.any (·.covers c)
  | .except set => !set.any (·.covers c)
  | .run => false
  | .deep => false

/-- The text and everything it ends in. -/
def endings : Text → List Text
  | [] => [[]]
  | c :: cs => (c :: cs) :: endings cs

/-- Whether the parts stand for the whole name. -/
def accepts : List Part → Text → Bool
  | [], name => name.isEmpty
  | .run :: rest, name => (endings name).any fun ending => accepts rest ending
  | .deep :: rest, name => (endings name).any fun ending => accepts rest ending
  | part :: rest, c :: name => part.accepts c && accepts rest name
  | _ :: _, [] => false

/-- The pattern that stands for exactly this text: special characters go between brackets. -/
def escape (t : Text) : Text :=
  t.flatMap fun c =>
    if c = '?' || c = '*' || c = '[' || c = ']' then ['[', c, ']'] else [c]

example : parts (escape "d[1]".toList) =
    .ok [.char 'd', .within [.one '['], .char '1', .within [.one ']']] := rfl

end StyleDocs.Wildcard
