import SyntaxStream.Highlight.Selection
import SyntaxStream.Path
import SyntaxStream.Session

namespace SyntaxStream.Cli

-- What to highlight: a file or the standard input, and how.
structure InputArgs where
  path : Option String
  lang : Option String
  theme : Option String
deriving Repr, DecidableEq, Inhabited

namespace InputArgs

-- The language asked for; otherwise that of the file, if it is known, or the usual one.
def language (input : InputArgs) (config : Config) : String :=
  match input.lang with
  | some lang => lang
  | none =>
    match input.path.map Language.ofPath with
    | none => config.language
    | some .plainText => config.language
    | some language => language.name

def themeId (input : InputArgs) (config : Config) : String :=
  input.theme.getD config.theme

def selection (input : InputArgs) (config : Config) : ThemeSelection :=
  .single (input.themeId config)

def sessionOptions (input : InputArgs) (config : Config) (noRecalls : Bool) : SessionOptions where
  language := some (input.language config)
  theme := some (input.themeId config)
  allowRecalls := config.allowRecalls && !noRecalls

end InputArgs

inductive Command where
  | serve (listen : Option String)
  | highlight (input : InputArgs) (endpoint : Option String) (html : Bool)
  | stream (input : InputArgs) (noRecalls : Bool) (chunkSize : Nat)
  | markdown (path theme endpoint : Option String) (html : Bool)
  | themes
deriving Repr, DecidableEq, Inhabited

namespace Command

def path? : Command → Option String
  | highlight input _ _ => input.path
  | stream input _ _ => input.path
  | markdown path _ _ _ => path
  | serve _ => none
  | themes => none

def readsInput : Command → Bool
  | highlight input _ _ => input.path.isNone
  | stream input _ _ => input.path.isNone
  | markdown path _ _ _ => path.isNone
  | serve _ => false
  | themes => false

end Command

-- A command, and the file of settings to use instead of the usual one.
structure CommandLine where
  config : Option String
  command : Command
deriving Repr, DecidableEq, Inhabited

end SyntaxStream.Cli
