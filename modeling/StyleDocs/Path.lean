import StyleDocs.Text

/-!
# Paths

A path is a text with `/` between its components. Empty components and a `.` behind the first place
say nothing and are dropped; a leading `.`, a `..` and the root are components of their own. The
order of paths is the lexicographic order of their components, which differs from the order of their
texts when a name contains a character below `/`.
-/

namespace StyleDocs.Path

/-- One step of a path. -/
inductive Component where
  /-- The leading `/`. -/
  | root
  /-- A leading `.`. -/
  | here
  /-- A `..`. -/
  | up
  /-- The name of a file or directory. -/
  | name (text : Text)
  deriving DecidableEq, Repr

/-- Whether the path begins at the root. -/
def isAbsolute (path : Text) : Bool := path.head? == some '/'

/-- Read `sub` below `base`; an absolute `sub` stands for itself. -/
def join (base sub : Text) : Text :=
  if isAbsolute sub then sub
  else if base.getLast?.all (· == '/') then base ++ sub
  else base ++ '/' :: sub

/-- A component behind the first place. -/
def inner? (part : Text) : Option Component :=
  if part = [] || part = ['.'] then none
  else if part = ['.', '.'] then some .up
  else some (.name part)

/-- The components of a path. -/
def components (path : Text) : List Component :=
  match Text.splitAt '/' path with
  | [] => []
  | first :: rest =>
    let tail := rest.filterMap inner?
    if isAbsolute path then .root :: tail
    else if first = ['.'] then .here :: tail
    else (inner? first).toList ++ tail

/-- The text of a component. -/
def Component.text : Component → Text
  | .root => ['/']
  | .here => ['.']
  | .up => ['.', '.']
  | .name t => t

/-- The text of a path with the given components. -/
def ofComponents (cs : List Component) : Text := cs.foldl (fun path c => join path c.text) []

/-- The name at the end of a path, if it ends in one. -/
def fileName? (path : Text) : Option Text :=
  match (components path).getLast? with
  | some (.name n) => some n
  | _ => none

/-- A file name cut at its last dot. A dot in the first place begins no extension. -/
def splitExtension (name : Text) : Text × Option Text :=
  match name.reverse.dropWhile (· != '.') with
  | [] => (name, none)
  | _ :: stem =>
    if stem = [] then (name, none)
    else (stem.reverse, some (name.reverse.takeWhile (· != '.')).reverse)

/-- The file name without its extension. -/
def stem (name : Text) : Text := (splitExtension name).1

/-- The extension of the file name. -/
def extension? (name : Text) : Option Text := (splitExtension name).2

/-- The components of `path` behind those of `base`. -/
def below? (base path : List Component) : Option (List Component) :=
  match base, path with
  | [], path => some path
  | b :: bs, p :: ps => if b = p then below? bs ps else none
  | _ :: _, [] => none

theorem below?_eq_some_iff {base path rest : List Component} :
    below? base path = some rest ↔ path = base ++ rest := by
  induction base generalizing path with
  | nil => simp [below?]
  | cons b bs ih =>
    cases path with
    | nil => simp [below?]
    | cons p ps =>
      by_cases h : b = p
      · subst h
        simp [below?, ih]
      · simp [below?, h, Ne.symm h]

/-- The last component without its extension, if it is a name. -/
def dropExtension : List Component → List Component
  | [] => []
  | [.name n] => (inner? (stem n)).toList
  | [c] => [c]
  | c :: cs => c :: dropExtension cs

/-- The names among the components. -/
def names (cs : List Component) : List Text :=
  cs.filterMap fun
    | .name n => some n
    | _ => none

/-- The path of a document below `root`, without the extension of its name: names alone, with `/`
between them. There is none when the document is not below `root` or no name is left. -/
def documentPath? (root path : Text) : Option Text :=
  match below? (components root) (components path) with
  | none => none
  | some rest =>
    match names (dropExtension rest) with
    | [] => none
    | parts => some (Text.joinWith ['/'] parts)

/-- The place of a component in the order: root, `.`, `..`, then names by their code points. -/
def Component.key : Component → List Nat
  | .root => [0]
  | .here => [1]
  | .up => [2]
  | .name t => 3 :: t.map Char.toNat

/-- The place of a path in the order of paths. -/
def key (path : Text) : List (List Nat) := (components path).map Component.key

/-- Whether the first path does not come behind the second. -/
def atMost (a b : Text) : Bool := !decide (key b < key a)

/-- Paths in ascending order. -/
def sort (paths : List Text) : List Text := paths.mergeSort atMost

example : documentPath? "docs".toList "docs/styles/grid/grid_columns.md".toList =
    some "styles/grid/grid_columns".toList := by decide

/-- A path that does not begin with the component `.` of the root is not below it. -/
example : documentPath? "./docs".toList "docs/styles/tint.md".toList = none := by decide

/-- Directories compare by name, so the one named by the longer text comes second here. -/
example : atMost "a/x".toList "a!/x".toList = true := by decide

end StyleDocs.Path
