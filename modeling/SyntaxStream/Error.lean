import SyntaxStream.Color
import SyntaxStream.Language
import SyntaxStream.Path
import SyntaxStream.Text.Quoted

namespace SyntaxStream

inductive ThemeError where
  | invalidId (id : String)
  | unknownId (id : String)
  -- what the system says of a file of the user
  | unreadable (fileName reason : String)
  | malformed (document : String)
  | color (reason : ColorError)
deriving Repr, DecidableEq

-- What messages take from outside: where the themes of the user are, and what a reader of YAML says
-- of a document that is no theme.
class Diagnostics where
  themesPath : String
  documentFault : String → String

-- Without a reader to ask, every document has the same fault.
@[reducible]
def Diagnostics.ofPath (themesPath : String) : Diagnostics := ⟨themesPath, fun _ => "not a theme"⟩

instance : Diagnostics := .ofPath "~/.config/streamlight/themes"

namespace ThemeError

def message [Diagnostics] : ThemeError → String
  | invalidId id => "Invalid theme id: " ++ Text.quoted id
  | unknownId id => "Unknown theme id: " ++ id
  | unreadable fileName reason =>
    "Failed to read theme file " ++ Path.join Diagnostics.themesPath fileName ++ ": " ++ reason
  | malformed document => "YAML parse error: " ++ Diagnostics.documentFault document
  | color reason => reason.message

end ThemeError

inductive SetupError where
  | unsupportedLanguage (name : String)
  | languageNotLoaded (language : Language)
  | themeNotLoaded (id : String)
  | theme (reason : ThemeError)
deriving Repr, DecidableEq

namespace SetupError

def message [Diagnostics] : SetupError → String
  | unsupportedLanguage name => "unsupported language: " ++ name
  | languageNotLoaded language => "language " ++ language.name ++ " was not loaded"
  | themeNotLoaded id => "theme " ++ id ++ " was not loaded"
  | theme reason => reason.message

end SetupError

inductive HighlightError where
  | initialization (reason : SetupError)
  -- the remote service does not exist
  | unavailable
  | status (code : Nat)
  | transport
  -- the answer of the remote service is no result
  | payload
  | source (reason : String)
deriving Repr, DecidableEq

namespace HighlightError

-- Only the absence of the service makes it count as unavailable.
def isUnavailable : HighlightError → Bool
  | unavailable => true
  | _ => false

def message [Diagnostics] : HighlightError → String
  | initialization reason => "failed to initialize tokenizer: " ++ reason.message
  | unavailable => "remote highlighter is unavailable"
  | status code => "remote highlighter returned status " ++ toString code
  | transport => "remote highlight request failed"
  | payload => "invalid highlight payload"
  | source reason => "chunk source read failed: " ++ reason

end HighlightError

end SyntaxStream
