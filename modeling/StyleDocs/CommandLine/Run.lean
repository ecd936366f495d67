import StyleDocs.Build
import StyleDocs.Checkout
import StyleDocs.CommandLine.Help
import StyleDocs.OutputFormat

/-!
# Carrying out a command line

A run is a function of its arguments, its standard input, the file tree, the outcomes of the calls
of git and the tree that these calls leave. What it does to the world is a value: the exit code,
what is printed, what is reported, the calls that were made and the files that were written. A
failed refresh has an exit code of its own, and a run that fails has written nothing.
-/

namespace StyleDocs.CommandLine

/-- What a run does. -/
structure Outcome where
  /-- The exit code. -/
  exitCode : Nat
  /-- What is printed. -/
  printed : Text := []
  /-- Why the command line is refused, in words. -/
  complaint : Text := []
  /-- What there is to report, in order. -/
  events : List Event := []
  /-- The arguments of the calls of git that were made. -/
  calls : List (List Text) := []
  /-- The files that were written, with their content. -/
  written : List (Location × Text) := []

/-- The exit code of a run that fails. -/
def failureCode : Nat := 1

/-- The exit code of a run whose refresh fails. -/
def refreshFailureCode : Nat := 3

/-- A run that ends in a failure after some events. -/
def Outcome.failure (reason : Text) (events : List Event) : Outcome where
  exitCode := failureCode
  events := events ++ [.failed reason]

/-- Go on with a run that has reported something and made some calls. -/
def Outcome.after (events : List Event) (calls : List (List Text)) (rest : Outcome) : Outcome :=
  { rest with events := events ++ rest.events, calls := calls ++ rest.calls }

/-- Print the record of one document, for which no other document is known. -/
def printRecord (conv : Conventions) (input : ByteArray) : Outcome :=
  match FileTree.decode? input with
  | none => .failure ("failed to read stdin: ".toList ++ FileError.notText.message) []
  | some doc =>
    let record := Document.record conv .empty .empty doc
    { exitCode := 0
      printed := Json.print 0 (Json.ofRecord record) ++ ['\n']
      events := [Document.event conv "stdin".toList record] }

/-- Write a text to a file in a directory that is created where it is missing. What is answered is
the location that was written, or the words for the failure. -/
def writeInto (tree : FileTree) (directory fileName : Text) : Except Text Location :=
  match tree.makeDirectories directory with
  | .error e =>
    .error ("failed to create output directory: ".toList ++ directory ++ ": ".toList ++ e.message)
  | .ok tree =>
    let path := Path.join directory fileName
    match tree.target path with
    | .error e => .error ("failed to write ".toList ++ path ++ ": ".toList ++ e.message)
    | .ok location => .ok location

/-- Publish the reference of a tree in a format and a directory. -/
def publishIn (conv : Conventions) (tree : FileTree) (format : OutputFormat) (directory : Text) :
    Outcome :=
  let missing : List Event := if tree.isDirectory conv.root then [] else [.rootMissing conv.root]
  let (ref, events) := Build.reference conv tree
  let nothing : List Event :=
    if ref.properties.isEmpty then [.nothingExtracted conv.root] else []
  let events := missing ++ events ++ nothing
  match writeInto tree directory format.fileName with
  | .error reason => .failure reason events
  | .ok location =>
    { exitCode := 0
      events := events ++ [.wrote (Path.join directory format.fileName)]
      written := [(location, format.render ref)] }

/-- Publish the reference of a tree as a command line asks. -/
def publish (given : Given) (conv : Conventions) (tree : FileTree) : Outcome :=
  match given.value? .output with
  | none => .failure "--output is required when --docs is given".toList []
  | some directory =>
    let name := given.valueOr .format "rust".toList
    match OutputFormat.ofName? name with
    | none => .failure (OutputFormat.unknownMessage name) []
    | some format => publishIn conv tree format directory

/-- What a command line asks for once a checkout, if any, is refreshed. -/
def proceed (given : Given) (conv : Conventions) (root? : Option Text) (input : ByteArray)
    (tree : FileTree) : Outcome :=
  match root? with
  | some root => publish given { conv with root := root } tree
  | none => printRecord conv input

/-- What the refresh that a command line asks for needs to know. -/
def Given.refreshSettings (given : Given) (checkout : Text) : Checkout.Settings where
  repository := given.valueOr .repository defaultRepository
  checkout := checkout
  directories := Checkout.directories given.conventions

/-- Refresh the checkout and go on with the documents in it, unless others are named. The refresh
finds one tree, and what goes on sees the tree that the calls of git leave. -/
def refreshFirst (given : Given) (checkout : Text) (input : ByteArray) (tree left : FileTree)
    (git : Nat → Checkout.Outcome) : Outcome :=
  let run :=
    Checkout.refresh (given.refreshSettings checkout) (Checkout.isPresent tree checkout) git
  match run.result with
  | .error failure =>
    { exitCode := refreshFailureCode
      events := run.events ++ [.failed failure.report]
      calls := run.calls }
  | .ok () =>
    let root := given.valueOr .docs (Checkout.root checkout)
    .after run.events run.calls (proceed given given.conventions (some root) input left)

/-- Carry out an accepted command line. -/
def carryOut (given : Given) (input : ByteArray) (tree left : FileTree)
    (git : Nat → Checkout.Outcome) : Outcome :=
  match given.refresh, given.value? .checkout with
  | true, some checkout => refreshFirst given checkout input tree left git
  | true, none => .failure "--checkout is required with --refresh".toList []
  | false, _ => proceed given given.conventions (given.value? .docs) input tree

/-- The run of a command line that is refused. -/
def refused (refusal : Refusal) : Outcome where
  exitCode := refusal.exitCode
  printed := if refusal = .help then help else []
  complaint := refusal.message

/-- Carry out a command line, or refuse it, when the calls of git leave another tree. -/
def runLeaving (arguments : List Text) (input : ByteArray) (tree left : FileTree)
    (git : Nat → Checkout.Outcome) : Outcome :=
  match read arguments with
  | .error refusal => refused refusal
  | .ok given => carryOut given input tree left git

/-- Carry out a command line, or refuse it, when the calls of git leave the tree as it is. -/
def run (arguments : List Text) (input : ByteArray) (tree : FileTree)
    (git : Nat → Checkout.Outcome) : Outcome :=
  runLeaving arguments input tree tree git

/-- Whether a command line reads the standard input: it does when it names no documents and
refreshes none. -/
def readsInput (arguments : List Text) : Bool :=
  match read arguments with
  | .error _ => false
  | .ok given => !given.refresh && (given.value? .docs).isNone

/-- The standard input matters only to a command line that reads it. -/
theorem runLeaving_eq_of_not_readsInput {arguments : List Text} (h : readsInput arguments = false)
    (a b : ByteArray) (tree left : FileTree) (git : Nat → Checkout.Outcome) :
    runLeaving arguments a tree left git = runLeaving arguments b tree left git := by
  unfold readsInput at h
  unfold runLeaving
  split
  · rfl
  · next given hread =>
    rw [hread] at h
    unfold carryOut
    cases hrefresh : given.refresh with
    | true => cases given.value? .checkout <;> rfl
    | false =>
      cases hdocs : given.value? .docs with
      | none => simp [hrefresh, hdocs] at h
      | some root => rfl

/-- The least level that is reported. -/
def Given.level (given : Given) : Level :=
  if given.quiet then .error
  else match given.verbosity with
    | 0 => .warning
    | 1 => .info
    | _ => .debug

/-- The word for a level, at the right of five columns. -/
def levelWord : Level → String
  | .error => "ERROR"
  | .warning => " WARN"
  | .info => " INFO"
  | .debug => "DEBUG"

/-- The report of some events: a line for each that matters enough. -/
def report (level : Level) (events : List Event) : Text :=
  (events.filter fun event => event.level.rank ≤ level.rank).flatMap fun event =>
    (levelWord event.level).toList ++ ' ' :: event.message ++ ['\n']

/-- The level at which a command line is reported. -/
def levelOf (arguments : List Text) : Level :=
  match read arguments with
  | .error _ => .error
  | .ok given => given.level

end StyleDocs.CommandLine
