import SyntaxStream.Theme.Basic

namespace SyntaxStream

-- The themes a block is colored with: one theme, or several that are told apart by the names of
-- their variants.
inductive ThemeSelection where
  | single (id : String)
  | variants (themes : Dict String)
deriving DecidableEq, Inhabited

namespace ThemeSelection

def unspecified : ThemeSelection := variants Dict.empty

def primaryName : String := "default"

-- The variants with their theme ids, the primary one first. It is the one with the name of the
-- primary variant if there is such a one, and the first by name otherwise. No selection is empty.
def pairs : ThemeSelection → List (String × String)
  | single id => [(primaryName, id)]
  | variants themes =>
    match themes.get? primaryName with
    | some id => (primaryName, id) :: themes.entries.filter fun entry => entry.1 != primaryName
    | none =>
      if themes.isEmpty then [(primaryName, Theme.fallbackId)] else themes.entries

-- Every theme id once, in the order of the variants.
def themeIds (selection : ThemeSelection) : List String :=
  (selection.pairs.map (·.2)).eraseDups

end ThemeSelection

end SyntaxStream
