import StyleDocs.FileTree
import StyleDocs.Wildcard

/-!
# Listing the paths of a pattern

A path pattern is followed component by component from the working directory. A component without
special characters is looked up and not searched for, so it can name `.` and `..`; any other is
compared with the names in a directory. Two stars stand for any directories, none included. The
listing is in no particular order.
-/

namespace StyleDocs.Wildcard

/-- The components of a path pattern; a slash at the end begins none. -/
def splitComponents (pattern : Text) : List Text :=
  let all := Text.splitAt '/' (if Path.isAbsolute pattern then pattern.drop 1 else pattern)
  if all.getLast? = some [] then all.dropLast else all

/-- A pattern is refused when it or one of its components is none. -/
def compile (pattern : Text) : Except Fault (List (List Part)) :=
  match parts pattern with
  | .error fault => .error fault
  | .ok _ => (splitComponents pattern).mapM parts

/-- Whether the component stands for any directories. -/
def isDeep (component : List Part) : Bool := component == [.deep]

/-- Whether a path says only where one is. -/
def isHere (path : Text) : Bool := Path.components path == [.here]

/-- The path of a name below `path`; the working directory itself is not written. -/
def below (path name : Text) : Text := if isHere path then name else Path.join path name

/-- The paths that the components stand for below `path`. The first argument bounds the number of
components followed. -/
def expand (tree : FileTree) : Nat → List (List Part) → Text → List Text
  | 0, _, _ => []
  | _, [], path => [path]
  | fuel + 1, component :: rest, path =>
    /- A component has led to `next`: the rest goes on from there. -/
    let arrive (rest : List (List Part)) (next : Text) : List Text :=
      match rest with
      | [] => [next]
      | _ => expand tree fuel rest next
    match literal? component with
    | some name =>
      let next := below path name
      let found :=
        if name = ['.'] || name = ['.', '.'] then tree.isDirectory path else tree.has next
      if found then arrive rest (if isHere path then name else next) else []
    | none =>
      match tree.list path with
      | .error _ => []
      | .ok names =>
        /- A child meets a component that is compared by name. -/
        let meet (components : List (List Part)) (child name : Text) : List Text :=
          match components with
          | [] => []
          | first :: rest => if accepts first name then arrive rest child else []
        let children := names.flatMap fun name =>
          let child := below path name
          if isDeep component then
            let rest := rest.dropWhile isDeep
            if tree.isDirectory child then
              expand tree fuel (component :: rest) child
                ++ (if rest.isEmpty then [child] else meet rest child name)
            else meet rest child name
          else meet (component :: rest) child name
        let specials :=
          if component.head? = some (.char '.') then
            ([['.'], ['.', '.']] : List Text).flatMap fun name =>
              if accepts component name then arrive rest (Path.join path name) else []
          else []
        children ++ specials

/-- How many components the listing of a tree can follow at most. -/
def bound (tree : FileTree) (components : List (List Part)) : Nat :=
  (components.length + 1) * (tree.nodes.foldl (fun m e => max m e.1.length) 0 + 2)

/-- The paths that a compiled pattern stands for. -/
def listing (tree : FileTree) (pattern : Text) (components : List (List Part)) : List Text :=
  let root : Text := if Path.isAbsolute pattern then ['/'] else ['.']
  let found := expand tree (bound tree components) components root
  if pattern.getLast? = some '/' then found.filter tree.isDirectory else found

end StyleDocs.Wildcard
