import StyleDocs.Path

/-!
# File trees

A file tree is a value: the files and directories below a working directory, each at the list of
names that leads to it. Reading, listing, creating directories and writing are functions of the tree
and a path, with the errors that a file system answers. Above the working directory the tree knows
only that there are directories, and nothing in them.
-/

namespace StyleDocs

/-- The ways in which a file operation fails. -/
inductive FileError where
  /-- Nothing has the path. -/
  | notFound
  /-- The operation may not be done. -/
  | notPermitted
  /-- Something has the path already. -/
  | alreadyThere
  /-- The path goes on behind a file. -/
  | notADirectory
  /-- A directory stands where a file is needed. -/
  | isADirectory
  /-- The content is not a text in UTF-8. -/
  | notText
  deriving DecidableEq, Repr

/-- The words for a failure. -/
def FileError.message : FileError → Text
  | .notFound => "No such file or directory (os error 2)".toList
  | .notPermitted => "Permission denied (os error 13)".toList
  | .alreadyThere => "File exists (os error 17)".toList
  | .notADirectory => "Not a directory (os error 20)".toList
  | .isADirectory => "Is a directory (os error 21)".toList
  | .notText => "stream did not contain valid UTF-8".toList

/-- What stands at a place of the tree. -/
inductive Node where
  /-- A file with its content. -/
  | file (content : ByteArray)
  /-- A directory. -/
  | directory

/-- The names that lead from the working directory to a place. -/
abbrev Location := List Text

/-- The files and directories below a working directory. A directory with something in it need not
be listed itself. -/
structure FileTree where
  /-- What stands where; the first entry for a location counts. -/
  nodes : List (Location × Node)

namespace FileTree

/-- Where a path leads. -/
inductive Place where
  /-- To a location below the working directory, whether or not something is there. -/
  | within (location : Location)
  /-- To a directory above the working directory. -/
  | above
  /-- To something else outside, of which the tree knows nothing. -/
  | outside
  deriving DecidableEq

/-- What stands at a location. -/
def nodeAt? (tree : FileTree) (location : Location) : Option Node :=
  if location = [] then some .directory
  else match tree.nodes.find? (·.1 == location) with
    | some (_, node) => some node
    | none =>
      if tree.nodes.any (fun e => location.isPrefixOf e.1) then some .directory else none

/-- What stands at a place. -/
def at? (tree : FileTree) : Place → Option Node
  | .within location => tree.nodeAt? location
  | .above => some .directory
  | .outside => none

/-- Follow one component; only a directory can be followed into. -/
def follow (tree : FileTree) (place : Place) (part : Text) : Except FileError Place :=
  match tree.at? place with
  | none => .error .notFound
  | some (.file _) => .error .notADirectory
  | some .directory =>
    if part = [] || part = ['.'] then .ok place
    else if part = ['.', '.'] then
      match place with
      | .within location => .ok (if location = [] then .above else .within location.dropLast)
      | other => .ok other
    else
      match place with
      | .within location => .ok (.within (location ++ [part]))
      | _ => .ok .outside

/-- The place where a path begins. -/
def start (path : Text) : Place := if Path.isAbsolute path then .above else .within []

/-- Follow a whole path. The empty path leads nowhere. -/
def resolve (tree : FileTree) (path : Text) : Except FileError Place :=
  if path = [] then .error .notFound
  else (Text.splitAt '/' path).foldlM tree.follow (start path)

/-- What has the path. -/
def lookup (tree : FileTree) (path : Text) : Except FileError Node :=
  match tree.resolve path with
  | .error e => .error e
  | .ok place =>
    match tree.at? place with
    | some node => .ok node
    | none => .error .notFound

/-- Whether something has the path. -/
def has (tree : FileTree) (path : Text) : Bool := (tree.lookup path).isOk

/-- Whether a directory has the path. -/
def isDirectory (tree : FileTree) (path : Text) : Bool :=
  match tree.lookup path with
  | .ok .directory => true
  | _ => false

/-- Whether a file has the path. -/
def isFile (tree : FileTree) (path : Text) : Bool :=
  match tree.lookup path with
  | .ok (.file _) => true
  | _ => false

/-- The name of the entry directly below a location through which a deeper location goes. -/
def nameBelow? (location deeper : Location) : Option Text :=
  if location.isPrefixOf deeper then (deeper.drop location.length).head? else none

/-- The names directly below a place, each once. -/
def namesAt (tree : FileTree) : Place → List Text
  | .within location => (tree.nodes.filterMap fun e => nameBelow? location e.1).eraseDups
  | _ => []

/-- The names in a directory. -/
def list (tree : FileTree) (path : Text) : Except FileError (List Text) :=
  match tree.resolve path with
  | .error e => .error e
  | .ok place =>
    match tree.at? place with
    | some .directory => .ok (tree.namesAt place)
    | some (.file _) => .error .notADirectory
    | none => .error .notFound

/-- The text that some bytes encode in UTF-8. -/
def decode? (content : ByteArray) : Option Text := (String.fromUTF8? content).map String.toList

/-- The bytes of a text in UTF-8. -/
def encode (t : Text) : ByteArray := (String.ofList t).toUTF8

/-- The text of a file. -/
def read (tree : FileTree) (path : Text) : Except FileError Text :=
  match tree.lookup path with
  | .error e => .error e
  | .ok .directory => .error .isADirectory
  | .ok (.file content) =>
    match decode? content with
    | some t => .ok t
    | none => .error .notText

/-- Put a node at a location. -/
def put (tree : FileTree) (location : Location) (node : Node) : FileTree :=
  ⟨(location, node) :: tree.nodes.filter (·.1 != location)⟩

/-- The parts of a path up to its last and the last, slashes at the end aside. -/
def parentAndName (path : Text) : List Text × Text :=
  let parts := Text.splitAt '/' (Text.trimEnd (· == '/') path)
  (parts.dropLast, parts.getLast?.getD [])

/-- Create one directory. -/
def makeDirectory (tree : FileTree) (path : Text) : Except FileError FileTree :=
  if path = [] then .error .notFound
  else
    let (parent, name) := parentAndName path
    match parent.foldlM tree.follow (start path) with
    | .error e => .error e
    | .ok place =>
      match tree.at? place with
      | none => .error .notFound
      | some (.file _) => .error .notADirectory
      | some .directory =>
        if name = [] || name = ['.'] || name = ['.', '.'] then .error .alreadyThere
        else match place with
          | .within location =>
            match tree.nodeAt? (location ++ [name]) with
            | some _ => .error .alreadyThere
            | none => .ok (tree.put (location ++ [name]) .directory)
          | _ => .error .notPermitted

/-- Create the directory of a path with the directories above it, given the components of the path
from the last to the first. A directory that is there already is no error. -/
def makeDirectoriesOf (tree : FileTree) (path : Text) :
    List Path.Component → Except FileError FileTree
  | [] => .ok tree
  | _ :: upward =>
    match tree.makeDirectory path with
    | .ok tree => .ok tree
    | .error .notFound =>
      match makeDirectoriesOf tree (Path.ofComponents upward.reverse) upward with
      | .error e => .error e
      | .ok tree =>
        match tree.makeDirectory path with
        | .ok tree => .ok tree
        | .error e => if tree.isDirectory path then .ok tree else .error e
    | .error e => if tree.isDirectory path then .ok tree else .error e

/-- Create the directory of a path with the directories above it. -/
def makeDirectories (tree : FileTree) (path : Text) : Except FileError FileTree :=
  tree.makeDirectoriesOf path (Path.components path).reverse

/-- The location of a file that may be written at a path. -/
def target (tree : FileTree) (path : Text) : Except FileError Location :=
  match tree.resolve path with
  | .error e => .error e
  | .ok (.within location) =>
    match tree.nodeAt? location with
    | some .directory => .error .isADirectory
    | _ => .ok location
  | .ok .above => .error .isADirectory
  | .ok .outside => .error .notPermitted

/-- The files of the tree with their content. -/
def files (tree : FileTree) : List (Location × ByteArray) :=
  tree.nodes.filterMap fun
    | (location, .file content) => some (location, content)
    | (_, .directory) => none

end FileTree

end StyleDocs
