import StyleDocs.Text.Blank
import StyleDocs.Text.LowerCase

/-!
# Keys

Names are looked up without regard to white space around them, to letter case and to the choice
between hyphen and underscore. Properties and types have hyphens in their keys, files underscores.
-/

namespace StyleDocs.Key

/-- The key of a value: no white space around it, and lower case. -/
def value (name : Text) : Text := Text.lower (Text.strip name)

/-- The key of a property or a type. -/
def property (name : Text) : Text := Text.replaceChar '_' '-' (value name)

/-- The key of a file. -/
def file (name : Text) : Text := Text.replaceChar '-' '_' (value name)

end StyleDocs.Key
