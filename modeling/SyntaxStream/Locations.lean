import SyntaxStream.Path

namespace SyntaxStream

structure Locations where
  base : String
deriving Repr, DecidableEq, Inhabited

namespace Locations

-- The directory of this program among those of all programs.
def programName : String := "streamlight"

-- The directory for settings if there is one, and the usual directory in the home otherwise.
def ofEnvironment (settings : Option String) (home : Option String) : Option Locations :=
  match settings, home with
  | some directory, _ => some ⟨Path.join directory programName⟩
  | none, some home => some ⟨Path.join (Path.join home ".config") programName⟩
  | none, none => none

def themes (l : Locations) : String := Path.join l.base "themes"

def file (l : Locations) : String := Path.join l.base "config.yaml"

def logs (l : Locations) : String := Path.join l.base "logs"

end Locations

end SyntaxStream
