import StyleDocs.CommandLine.Run

/-!
# The program

The program reads the file tree below the working directory, carries out its command line on that
value and puts what comes of it into effect. It starts no other program, so a refresh of a checkout
ends with the report that git was not found; documents in a checkout that is there are read all the
same when `--docs` names them.
-/

namespace StyleDocs

/-- The nodes of a directory whose entries are given, and of the directories below it. What cannot
be read is left out, and links are not followed. -/
partial def nodesBelow (location : Location) (entries : Array IO.FS.DirEntry) :
    IO (List (Location × Node)) := do
  let mut nodes := []
  for entry in entries do
    let place := location ++ [entry.fileName.toList]
    let found ← try
        match (← entry.path.symlinkMetadata).type with
        | .dir => do
          let below ← nodesBelow place (← entry.path.readDir)
          pure ((place, Node.directory) :: below)
        | .file => do
          let content ← IO.FS.readBinFile entry.path
          pure [(place, Node.file content)]
        | _ => pure []
      catch _ => pure []
    nodes := nodes ++ found
  return nodes

/-- Put a file into place. -/
def putFile (location : Location) (content : Text) : IO Unit := do
  let parent := String.ofList (Text.joinWith ['/'] location.dropLast)
  unless parent.isEmpty do IO.FS.createDirAll parent
  IO.FS.writeBinFile (String.ofList (Text.joinWith ['/'] location)) (FileTree.encode content)

end StyleDocs

open StyleDocs

/-- Carry out the arguments of the program. -/
def main (arguments : List String) : IO UInt32 := do
  let arguments := arguments.map String.toList
  let tree : FileTree := ⟨← nodesBelow [] (← (← IO.currentDir).readDir)⟩
  let input ← if CommandLine.readsInput arguments then (← IO.getStdin).readBinToEnd
    else pure .empty
  let outcome := CommandLine.run arguments input tree fun _ => .notStarted .notFound
  for (location, content) in outcome.written do putFile location content
  IO.print (String.ofList outcome.printed)
  unless outcome.complaint.isEmpty do IO.eprintln (String.ofList outcome.complaint)
  IO.eprint (String.ofList (CommandLine.report (CommandLine.levelOf arguments) outcome.events))
  return UInt32.ofNat outcome.exitCode
