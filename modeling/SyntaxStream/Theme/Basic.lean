import SyntaxStream.Dict
import SyntaxStream.Error
import SyntaxStream.Scope

namespace SyntaxStream

-- A theme as it is written down: colors are still text.
structure ThemeData where
  version : Nat
  name : String
  author : Option String
  description : Option String
  background : String
  foreground : String
  -- colors by scope name
  scopes : Dict String
deriving DecidableEq

-- A theme with the color of each highlight. The table has a place for every name of the
-- vocabulary; an unstyled name has none.
structure Theme where
  id : String
  name : String
  background : Color
  foreground : Color
  colors : List (Option Color)
deriving Repr, DecidableEq, Inhabited

namespace Theme

-- The color of a scope: its own, or that of the nearest styled ancestor.
def inherited (explicit : List (String × Color)) (scope : String) : Option Color :=
  (Scope.ancestors scope).findSome? fun name => explicit.lookup name

def readColor (text : String) : Except ThemeError Color :=
  (Color.ofHex text).mapError .color

-- All colors have to be readable, those of scopes outside the vocabulary too. The first that is
-- not decides the error: the scopes in order, then the background, then the foreground.
def ofData (id : String) (data : ThemeData) : Except ThemeError Theme := do
  let explicit ← data.scopes.entries.mapM fun (scope, text) => do
    return (scope, ← readColor text)
  let background ← readColor data.background
  let foreground ← readColor data.foreground
  return {
    id, background, foreground
    name := data.name
    colors := Scope.names.map (inherited explicit) }

-- The color of a highlight, none when the theme leaves it unstyled.
def colorFor (theme : Theme) (highlight : Nat) : Option Color :=
  theme.colors[highlight]?.join

-- The color of a scope name; the foreground for what is unknown or unstyled.
def colorForScope (theme : Theme) (scope : Option String) : Color :=
  ((scope.bind Scope.number?).bind theme.colorFor).getD theme.foreground

-- The theme of requests that name none.
def fallbackId : String := "github-dark"

end Theme

end SyntaxStream
