import StyleDocs.FileTree
import StyleDocs.Wildcard

/-!
# Events of a run

What a run has to report is data: an event says what happened, `Event.level` how much it matters and
`Event.message` puts it into words. Functions that have something to report return their events in
order, so that a statement about warnings is a statement about a list.
-/

namespace StyleDocs

/-- How much an event matters, from most to least. -/
inductive Level where
  /-- The run fails. -/
  | error
  /-- Something is lost or looks wrong. -/
  | warning
  /-- A step of the run. -/
  | info
  /-- A detail of a step. -/
  | debug
  deriving DecidableEq, Repr

/-- Levels in order of their weight. -/
def Level.rank : Level → Nat
  | .error => 0
  | .warning => 1
  | .info => 2
  | .debug => 3

/-- What happens in a run. -/
inductive Event where
  /-- The directory of type documents cannot be listed. -/
  | typesUnreadable (directory : Text) (cause : FileError)
  /-- So many type documents were found. -/
  | typesFound (count : Nat) (directory : Text)
  /-- The property documents cannot be searched for. -/
  | patternRefused (pattern : Text) (fault : Wildcard.Fault)
  /-- A document does not lie below the root. -/
  | outsideRoot (path : Text)
  /-- A document takes the place of another with the same name. -/
  | nameCollision (name path replaced : Text)
  /-- There are no property documents. -/
  | noProperties (directory : Text)
  /-- So many property documents were found. -/
  | propertiesFound (count : Nat) (directory : Text)
  /-- A document cannot be read. -/
  | documentUnreadable (path : Text) (cause : FileError)
  /-- What a document yielded. -/
  | documentRead (name : Text) (values : Nat) (grammar css : Bool) (language : Text)
      (second : Bool) (related : Nat)
  /-- A document yielded nothing. -/
  | nothingFound (name : Text)
  /-- The size of the outcome. -/
  | summary (types properties records : Nat)
  /-- Two documents describe one property. -/
  | documentedTwice (property kept : Text)
  /-- An existing checkout is brought up to date. -/
  | updating (checkout : Text)
  /-- A checkout is made. -/
  | cloning (repository checkout : Text)
  /-- The root of the documents is no directory. -/
  | rootMissing (root : Text)
  /-- The outcome documents no property. -/
  | nothingExtracted (root : Text)
  /-- A file was written. -/
  | wrote (path : Text)
  /-- The run failed. -/
  | failed (reason : Text)
  deriving DecidableEq, Repr

namespace Event

/-- How much an event matters. -/
def level : Event → Level
  | typesUnreadable .. | patternRefused .. | outsideRoot .. | nameCollision .. | noProperties ..
  | documentUnreadable .. | documentedTwice .. | rootMissing .. | nothingExtracted .. => .warning
  | summary .. | updating .. | cloning .. | wrote .. => .info
  | typesFound .. | propertiesFound .. | documentRead .. | nothingFound .. => .debug
  | failed .. => .error

/-- The words for an event. -/
def message : Event → Text
  | typesUnreadable directory cause =>
    "type directory ".toList ++ directory ++ " unreadable: ".toList ++ cause.message
  | typesFound count directory =>
    "found ".toList ++ Text.ofNat count ++ " type documents in ".toList ++ directory
  | patternRefused pattern fault =>
    "invalid scan pattern ".toList ++ pattern ++ ": ".toList ++ fault.message
  | outsideRoot path =>
    "skipping ".toList ++ path ++ ": outside the documentation root".toList
  | nameCollision name path replaced =>
    "property document name collision for ".toList ++ name ++ ": ".toList ++ path
      ++ " replaces ".toList ++ replaced
  | noProperties directory => "no property documents found under ".toList ++ directory
  | propertiesFound count directory =>
    "found ".toList ++ Text.ofNat count ++ " property documents in ".toList ++ directory
  | documentUnreadable path cause =>
    "skipping ".toList ++ path ++ ": ".toList ++ cause.message
  | documentRead name values grammar css language second related =>
    name ++ ": ".toList ++ Text.ofNat values ++ " values, syntax=".toList ++ Text.ofBool grammar
      ++ ", css=".toList ++ Text.ofBool css ++ ", ".toList ++ language ++ "=".toList
      ++ Text.ofBool second ++ ", ".toList ++ Text.ofNat related ++ " related".toList
  | nothingFound name => name ++ ": nothing recognizable, no record".toList
  | summary types properties records =>
    Text.ofNat types ++ " types, ".toList ++ Text.ofNat properties
      ++ " property documents, ".toList ++ Text.ofNat records ++ " records".toList
  | documentedTwice property kept =>
    "property ".toList ++ property ++ " documented twice; keeping ".toList ++ kept
  | updating checkout => "updating documentation checkout ".toList ++ checkout
  | cloning repository checkout =>
    "cloning ".toList ++ repository ++ " into ".toList ++ checkout
  | rootMissing root => "documentation root ".toList ++ root ++ " does not exist".toList
  | nothingExtracted root => "no property documentation extracted from ".toList ++ root
  | wrote path => "wrote ".toList ++ path
  | failed reason => reason

end Event

end StyleDocs
