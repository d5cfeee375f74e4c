import SyntaxStream.Theme.Builtin
import SyntaxStream.Theme.Document

namespace SyntaxStream

-- What stands under a name in a directory.
inductive FileEntry where
  | text (content : String)
  | folder
  -- a file that is no text or is not to be read, with what the system says of it
  | unreadable (reason : String)
  -- a link that leads nowhere
  | brokenLink
deriving Repr, DecidableEq, Inhabited

namespace FileEntry

-- The text of a file, or what the system says if it cannot be read.
def read : FileEntry → Except String String
  | text content => .ok content
  | folder => .error "Is a directory (os error 21)"
  | unreadable reason => .error reason
  | brokenLink => .error "No such file or directory (os error 2)"

-- Whether there is something at the end of all links.
def isThere (entry : FileEntry) : Bool := entry != brokenLink

end FileEntry

-- Where themes are looked up: the files of the user's theme directory, then the built-in themes.
structure ThemeLibrary where
  files : List (String × FileEntry)
deriving Repr, DecidableEq, Inhabited

inductive ThemeOrigin where
  | user | builtin
deriving Repr, DecidableEq

structure ThemeInfo where
  id : String
  name : String
  origin : ThemeOrigin
deriving Repr, DecidableEq

namespace Theme

-- Ids are bare names: letters and digits of ASCII, hyphens and underscores.
def isValidId (id : String) : Bool :=
  !id.isEmpty && id.toList.all fun c => c.isAlphanum || c == '-' || c == '_'

def ofYaml (id : String) (text : String) : Except ThemeError Theme :=
  match ThemeData.ofYaml? text with
  | some data => ofData id data
  | none => .error (.malformed text)

def ofFile (id : String) (fileName : String) (entry : FileEntry) : Except ThemeError Theme := do
  ofYaml id (← entry.read.mapError (.unreadable fileName))

end Theme

namespace ThemeLibrary

open Theme

def bare : ThemeLibrary := ⟨[]⟩

-- What is found under the name of a file.
def file? (library : ThemeLibrary) (fileName : String) : Option FileEntry :=
  (library.files.lookup fileName).filter (·.isThere)

-- A theme by its id. A user's file of that name hides the built-in theme.
def load (library : ThemeLibrary) (id : String) : Except ThemeError Theme :=
  if !isValidId id then
    .error (.invalidId id)
  else
    let fileName := id ++ ".yaml"
    match library.file? fileName with
    | some entry => ofFile id fileName entry
    | none => ofBuiltin id

def listedExtensions : List String := ["yaml", "yml"]

-- The id a file is listed under.
def listedId? (fileName : String) : Option String :=
  listedExtensions.findSome? fun ext =>
    let suffix := '.' :: ext.toList
    let name := fileName.toList
    if suffix.isSuffixOf name then
      let id := String.ofList (name.take (name.length - suffix.length))
      if isValidId id then some id else none
    else none

def userInfo (id fileName : String) (entry : FileEntry) : ThemeInfo where
  id := id
  name := match ofFile id fileName entry with
    | .ok theme => theme.name
    | .error _ => id
  origin := .user

def builtinInfo (id : String) : ThemeInfo where
  id := id
  name := match ofBuiltin id with
    | .ok theme => theme.name
    | .error _ => id
  origin := .builtin

-- Of several entries with one id the first is kept.
def firstOfId (infos : List ThemeInfo) : List ThemeInfo :=
  infos.foldl (fun kept info => if kept.any (·.id == info.id) then kept else kept ++ [info]) []

-- Every theme that can be asked for: the user's files in the order of the directory, then the
-- built-in themes that no file hides.
def list (library : ThemeLibrary) : List ThemeInfo :=
  firstOfId <|
    (library.files.filterMap fun (fileName, entry) =>
      (listedId? fileName).map fun id => userInfo id fileName entry) ++
    builtinIds.map builtinInfo

end ThemeLibrary

end SyntaxStream
