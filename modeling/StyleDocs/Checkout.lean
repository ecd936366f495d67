import StyleDocs.Conventions
import StyleDocs.Event

/-!
# Refreshing a checkout

The documents come from a repository of which a checkout holds only the two directories that are
read. The first refresh clones the repository and then names those directories; a refresh of a
checkout that is there already brings it up to date. How the calls of git turn out is a function of
their place in the sequence, so a refresh is a function of that and of whether there is a checkout.
The first call that does not succeed ends the refresh.
-/

namespace StyleDocs.Checkout

/-- What comes of a call of git. -/
inductive Outcome where
  /-- It could not be started. -/
  | notStarted (cause : FileError)
  /-- It ended with an exit code. -/
  | exited (code : Nat)
  /-- It was ended by a signal. -/
  | killed (signal : Nat)
  deriving DecidableEq, Repr

/-- The steps of a refresh. -/
inductive Step where
  /-- Bring a checkout up to date. -/
  | pull
  /-- Make a checkout. -/
  | clone
  /-- Name the directories of a checkout that are read. -/
  | sparse
  deriving DecidableEq, Repr

/-- The name of a step. -/
def Step.name : Step → Text
  | .pull => "git pull".toList
  | .clone => "git clone".toList
  | .sparse => "git sparse-checkout".toList

/-- Why a refresh fails. -/
inductive Failure where
  /-- The program could not be started. -/
  | start (program : Text) (step : Step) (cause : FileError)
  /-- The program ended with an exit code other than zero. -/
  | exit (step : Step) (code : Nat)
  /-- The program was ended by a signal. -/
  | signal (step : Step) (number : Nat)
  deriving DecidableEq, Repr

/-- The names of the signals. -/
def signalName? (number : Nat) : Option String :=
  ["HUP", "INT", "QUIT", "ILL", "TRAP", "ABRT", "BUS", "FPE", "KILL", "USR1", "SEGV", "USR2",
    "PIPE", "ALRM", "TERM", "STKFLT", "CHLD", "CONT", "STOP", "TSTP", "TTIN", "TTOU", "URG",
    "XCPU", "XFSZ", "VTALRM", "PROF", "WINCH", "IO", "PWR", "SYS"][number - 1]?

/-- A signal by its number and name. -/
def signalText (number : Nat) : Text :=
  "signal: ".toList ++ Text.ofNat number ++
    match signalName? number with
    | some name => " (SIG".toList ++ name.toList ++ ")".toList
    | none => []

/-- The words for a failure. -/
def Failure.message : Failure → Text
  | .start program step cause =>
    "failed to start `".toList ++ program ++ "` for ".toList ++ step.name ++ ": ".toList
      ++ cause.message
  | .exit step code =>
    step.name ++ " failed (exit status: ".toList ++ Text.ofNat code ++ ")".toList
  | .signal step number =>
    step.name ++ " failed (".toList ++ signalText number ++ ")".toList

/-- The step at which the refresh failed. -/
def Failure.step : Failure → Step
  | .start _ step _ => step
  | .exit step _ => step
  | .signal step _ => step

/-- The words for a failure with its cause, which is named once more. -/
def Failure.report : Failure → Text
  | .start program step cause =>
    (Failure.start program step cause).message ++ ": ".toList ++ cause.message
  | failure => failure.message

/-- What a refresh needs to know. -/
structure Settings where
  /-- The program to be called. -/
  program : Text := "git".toList
  /-- The repository. -/
  repository : Text
  /-- The directory of the checkout. -/
  checkout : Text
  /-- The directories of the repository that are read. -/
  directories : List Text := ["docs/styles".toList, "docs/css_types".toList]
  deriving DecidableEq, Repr

/-- What a refresh did. -/
structure Run where
  /-- The arguments of the calls that were made. -/
  calls : List (List Text)
  /-- What there is to report. -/
  events : List Event
  /-- Whether it failed, and why. -/
  result : Except Failure Unit

/-- The arguments of the call that makes a step. -/
def Settings.arguments (settings : Settings) : Step → List Text
  | .pull => ["-C".toList, settings.checkout, "pull".toList, "--ff-only".toList]
  | .clone =>
    ["clone".toList, "--depth".toList, "1".toList, "--filter=blob:none".toList,
      "--sparse".toList, settings.repository, settings.checkout]
  | .sparse =>
    ["-C".toList, settings.checkout, "sparse-checkout".toList, "set".toList]
      ++ settings.directories

/-- What the outcome of its call makes of a step. -/
def Settings.judge (settings : Settings) (step : Step) : Outcome → Except Failure Unit
  | .notStarted cause => .error (.start settings.program step cause)
  | .exited code => if code = 0 then .ok () else .error (.exit step code)
  | .killed number => .error (.signal step number)

/-- Whether the outcome is that of a call that was made, as opposed to one that did not start. -/
def Outcome.wasStarted : Outcome → Bool
  | .notStarted _ => false
  | _ => true

/-- Make steps one after the other until one fails; `git` tells what comes of each call. -/
def perform (settings : Settings) (git : Nat → Outcome) :
    List Step → (place : Nat) → List (List Text) × Except Failure Unit
  | [], _ => ([], .ok ())
  | step :: steps, place =>
    let outcome := git place
    let call := if outcome.wasStarted then [settings.arguments step] else []
    match settings.judge step outcome with
    | .error failure => (call, .error failure)
    | .ok () =>
      let (calls, result) := perform settings git steps (place + 1)
      (call ++ calls, result)

/-- The steps of a refresh, which depend on whether there is a checkout. -/
def steps (present : Bool) : List Step := if present then [.pull] else [.clone, .sparse]

/-- Refresh a checkout. -/
def refresh (settings : Settings) (present : Bool) (git : Nat → Outcome) : Run :=
  let (calls, result) := perform settings git (steps present) 0
  { calls, result,
    events :=
      if present then [.updating settings.checkout]
      else [.cloning settings.repository settings.checkout] }

/-- Whether there is a checkout already: a repository directory in its place. -/
def isPresent (tree : FileTree) (checkout : Text) : Bool :=
  tree.has (Path.join checkout ".git".toList)

/-- The root of the documents in a checkout. -/
def root (checkout : Text) : Text := Path.join checkout "docs".toList

/-- The directories of the repository that are read under some conventions. -/
def directories (conv : Conventions) : List Text :=
  ["docs/".toList ++ conv.propertyDirectory, "docs/".toList ++ conv.typeDirectory]

/-- The exit codes of the two programs that do nothing, by every name they are called by. -/
def idleCode? (program : Text) : Option Nat :=
  if ["true".toList, "/bin/true".toList, "/usr/bin/true".toList].contains program then some 0
  else if ["false".toList, "/bin/false".toList, "/usr/bin/false".toList].contains program then
    some 1
  else none

/-- What comes of calling a program when no file of the tree may be executed and no program is known
by its bare name but the two that do nothing. -/
def callOf (tree : FileTree) (program : Text) : Outcome :=
  match idleCode? program with
  | some code => .exited code
  | none =>
    if program.contains '/' then
      match tree.lookup program with
      | .error cause => .notStarted cause
      | .ok _ => .notStarted .notPermitted
    else .notStarted .notFound

end StyleDocs.Checkout
