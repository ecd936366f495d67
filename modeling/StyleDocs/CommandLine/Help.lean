import StyleDocs.CommandLine

/-!
# What a refused command line is told

A refusal is put into one line of words. Asking for the options is a refusal too, and its answer is
the list of the options.
-/

namespace StyleDocs.CommandLine

/-- The long name of an option with a value, as it is typed. -/
def Valued.shown (option : Valued) : Text :=
  "--".toList ++ (((Valued.names.find? fun entry => entry.1 == option).map Prod.snd).getD "").toList

/-- The long name of a flag, as it is typed. -/
def Flag.shown (flag : Flag) : Text :=
  "--".toList ++ (((Flag.names.find? fun entry => entry.1 == flag).map Prod.snd).getD "").toList

/-- Every option that is shown with a value is read again under that name. -/
theorem Valued.ofName?_shown (option : Valued) :
    (Text.after? "--".toList option.shown).bind Valued.ofName? = some option := by
  cases option <;> decide

/-- Every flag that is shown is read again under that name. -/
theorem Flag.ofName?_shown (flag : Flag) :
    (Text.after? "--".toList flag.shown).bind Flag.ofName? = some flag := by
  cases flag <;> decide

/-- The words for a refusal. -/
def Refusal.message : Refusal → Text
  | .help => []
  | .unknown name => "unknown option ".toList ++ name
  | .unexpected argument => "unexpected argument ".toList ++ argument
  | .valueMissing option => option.shown ++ " needs a value".toList
  | .valueEmpty option => option.shown ++ " needs a value that is not empty".toList
  | .valueUnwanted flag => flag.shown ++ " takes no value".toList
  | .repeated name => name ++ " is given twice".toList
  | .checkoutMissing =>
    Flag.refresh.shown ++ " goes only with ".toList ++ Valued.checkout.shown
  | .quietAndVerbose =>
    Flag.quiet.shown ++ " does not go with ".toList ++ Flag.verbose.shown

/-- What an option with a value is for. -/
def Valued.purpose : Valued → String
  | .docs => "root of the documents; without it one document is read from standard input"
  | .output => "directory that is written to"
  | .format => "output format: rust (as if not given) or json"
  | .baseUrl => "address of the published documents"
  | .propertyDirectory => "directory of the property documents below the root"
  | .typeDirectory => "directory of the type documents below the root"
  | .checkout => "checkout that is refreshed; its docs are read unless others are named"
  | .repository => "repository that is cloned"

/-- What a flag is for. -/
def Flag.purpose : Flag → String
  | .refresh => "clone or update the checkout first"
  | .verbose => "report more; may be repeated"
  | .quiet => "report failures only"
  | .help => "show the options"

/-- The list of the options, a line each. -/
def help : Text :=
  "Options:\n".toList
    ++ (Valued.names.flatMap fun entry =>
      "  ".toList ++ entry.1.shown ++ " VALUE: ".toList ++ entry.1.purpose.toList ++ ['\n'])
    ++ (Flag.names.flatMap fun entry =>
      "  ".toList ++ entry.1.shown ++ ": ".toList ++ entry.1.purpose.toList ++ ['\n'])

end StyleDocs.CommandLine
