import StyleDocs.Conventions

/-!
# The command line

Options are given by long names, with the value as the next argument or behind an equals sign, and
some by letters, which may be run together; the value of a letter may follow it at once. A value
that could be taken for an option has to be attached. An option with a value is given once at most,
paths are not empty, and some options go only with or without another. What cannot be read that way
is refused, and the refusal says why.
-/

namespace StyleDocs.CommandLine

/-- The options that have a value. -/
inductive Valued where
  /-- The root of the documents. -/
  | docs
  /-- The directory that is written to. -/
  | output
  /-- The name of the output format. -/
  | format
  /-- The address of the site. -/
  | baseUrl
  /-- The directory of the property documents. -/
  | propertyDirectory
  /-- The directory of the type documents. -/
  | typeDirectory
  /-- The checkout to be refreshed. -/
  | checkout
  /-- The repository to be cloned. -/
  | repository
  deriving DecidableEq, Repr

/-- The options that have none. -/
inductive Flag where
  /-- Refresh the checkout. -/
  | refresh
  /-- Report more. -/
  | verbose
  /-- Report failures only. -/
  | quiet
  /-- Explain the options. -/
  | help
  deriving DecidableEq, Repr

/-- Why a command line is not carried out. -/
inductive Refusal where
  /-- The options are to be explained. -/
  | help
  /-- There is no such option. -/
  | unknown (name : Text)
  /-- An argument belongs to no option. -/
  | unexpected (argument : Text)
  /-- An option lacks its value. -/
  | valueMissing (option : Valued)
  /-- A path is empty. -/
  | valueEmpty (option : Valued)
  /-- A flag has a value. -/
  | valueUnwanted (flag : Flag)
  /-- An option is given twice. -/
  | repeated (name : Text)
  /-- A refresh has no checkout. -/
  | checkoutMissing
  /-- More and less are to be reported at once. -/
  | quietAndVerbose
  deriving DecidableEq, Repr

/-- The exit code of a refused command line. -/
def Refusal.exitCode : Refusal → Nat
  | .help => 0
  | _ => 2

/-- The long names of the options with a value. -/
def Valued.names : List (Valued × String) :=
  [(.docs, "docs"), (.output, "output"), (.format, "format"), (.baseUrl, "base-url"),
    (.propertyDirectory, "styles-dir"), (.typeDirectory, "types-dir"), (.checkout, "checkout"),
    (.repository, "repo")]

/-- The option with a value that a long name stands for. -/
def Valued.ofName? (name : Text) : Option Valued :=
  (Valued.names.find? fun entry => entry.2.toList == name).map Prod.fst

/-- The option with a value that a letter stands for. -/
def Valued.ofLetter? (letter : Char) : Option Valued :=
  if letter = 'o' then some .output else if letter = 'f' then some .format else none

/-- Whether the value of the option is a path. -/
def Valued.isPath : Valued → Bool
  | .docs | .output | .checkout => true
  | _ => false

/-- The long names of the flags. -/
def Flag.names : List (Flag × String) :=
  [(.refresh, "refresh"), (.verbose, "verbose"), (.quiet, "quiet"), (.help, "help")]

/-- The flag that a long name stands for. -/
def Flag.ofName? (name : Text) : Option Flag :=
  (Flag.names.find? fun entry => entry.2.toList == name).map Prod.fst

/-- The flag that a letter stands for. -/
def Flag.ofLetter? (letter : Char) : Option Flag :=
  if letter = 'v' then some .verbose
  else if letter = 'q' then some .quiet
  else if letter = 'h' then some .help
  else none

/-- What was given so far. -/
structure Given where
  /-- The values of options. -/
  values : List (Valued × Text) := []
  /-- Whether a refresh is asked for. -/
  refresh : Bool := false
  /-- How often more is asked for. -/
  verbosity : Nat := 0
  /-- Whether only failures are to be reported. -/
  quiet : Bool := false
  deriving DecidableEq, Repr

namespace Given

/-- The value of an option. -/
def value? (given : Given) (option : Valued) : Option Text :=
  (given.values.find? fun entry => entry.1 == option).map Prod.snd

/-- The value of an option, or what holds without it. -/
def valueOr (given : Given) (option : Valued) (usual : Text) : Text :=
  (given.value? option).getD usual

/-- Take the value of an option. -/
def addValue (given : Given) (option : Valued) (value : Text) : Except Refusal Given :=
  if (given.value? option).isSome then .error (.repeated value)
  else if option.isPath && value.isEmpty then .error (.valueEmpty option)
  else .ok { given with values := given.values ++ [(option, value)] }

/-- Take a flag. -/
def addFlag (given : Given) : Flag → Except Refusal Given
  | .refresh =>
    if given.refresh then .error (.repeated "refresh".toList)
    else .ok { given with refresh := true }
  | .verbose => .ok { given with verbosity := given.verbosity + 1 }
  | .quiet =>
    if given.quiet then .error (.repeated "quiet".toList) else .ok { given with quiet := true }
  | .help => .error .help

end Given

/-- Whether an argument is read as an option or as the end of the options. -/
def isOptionLike (argument : Text) : Bool := argument.head? == some '-' && argument != ['-']

/-- Read letters run together. The value of a letter is what follows it, an equals sign aside; when
nothing does, the option waits for the next argument. -/
def readLetters (given : Given) : Text → Except Refusal (Given × Option Valued)
  | [] => .ok (given, none)
  | letter :: rest =>
    match Valued.ofLetter? letter with
    | some option =>
      if rest.isEmpty then .ok (given, some option)
      else (given.addValue option ((Text.after? ['='] rest).getD rest)).map (·, none)
    | none =>
      match Flag.ofLetter? letter with
      | none => .error (.unknown [letter])
      | some flag =>
        match given.addFlag flag with
        | .error refusal => .error refusal
        | .ok given => readLetters given rest

/-- Read a long name, behind its hyphens, with its value if there is an equals sign. -/
def readName (given : Given) (argument : Text) : Except Refusal (Given × Option Valued) :=
  let name := argument.takeWhile (· != '=')
  let value? := (argument.dropWhile (· != '=')).tail?
  match Valued.ofName? name, Flag.ofName? name with
  | some option, _ =>
    match value? with
    | some value => (given.addValue option value).map (·, none)
    | none => .ok (given, some option)
  | none, some flag =>
    match value? with
    | some _ => .error (.valueUnwanted flag)
    | none => (given.addFlag flag).map (·, none)
  | none, none => .error (.unknown name)

/-- Read the arguments behind those already read. An option may wait for its value. -/
def readFrom (given : Given) (waiting : Option Valued) : List Text → Except Refusal Given
  | [] =>
    match waiting with
    | some option => .error (.valueMissing option)
    | none => .ok given
  | argument :: rest =>
    match waiting with
    | some option =>
      if isOptionLike argument then .error (.valueMissing option)
      else match given.addValue option argument with
        | .error refusal => .error refusal
        | .ok given => readFrom given none rest
    | none =>
      if argument = "--".toList then
        match rest with
        | [] => .ok given
        | next :: _ => .error (.unexpected next)
      else if isOptionLike argument then
        let read :=
          match Text.after? "--".toList argument with
          | some name => readName given name
          | none => readLetters given argument.tail
        match read with
        | .error refusal => .error refusal
        | .ok (given, waiting) => readFrom given waiting rest
      else .error (.unexpected argument)

/-- Check which options go together. -/
def Given.check (given : Given) : Except Refusal Given :=
  if given.refresh && (given.value? .checkout).isNone then .error .checkoutMissing
  else if given.quiet && given.verbosity != 0 then .error .quietAndVerbose
  else .ok given

/-- Read a command line. -/
def read (arguments : List Text) : Except Refusal Given :=
  match readFrom {} none arguments with
  | .error refusal => .error refusal
  | .ok given => given.check

/-- The conventions that a command line asks for. -/
def Given.conventions (given : Given) : Conventions :=
  let usual : Conventions := {}
  let conv : Conventions :=
    { usual with
      propertyDirectory := given.valueOr .propertyDirectory usual.propertyDirectory
      typeDirectory := given.valueOr .typeDirectory usual.typeDirectory }
  match given.value? .baseUrl with
  | some url => conv.withBaseUrl url
  | none => conv

end StyleDocs.CommandLine
