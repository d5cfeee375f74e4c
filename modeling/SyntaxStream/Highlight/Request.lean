import SyntaxStream.Highlight.Selection

namespace SyntaxStream

structure HighlightOptions where
  -- the numbers of the lines to mark, counted from one
  highlights : List Nat
  -- what stands behind the language in the opening fence
  fenceMeta : Option String
deriving Repr, DecidableEq, Inhabited

namespace HighlightOptions

def none : HighlightOptions := ⟨[], .none⟩

end HighlightOptions

structure HighlightRequest where
  code : String
  lang : String
  theme : ThemeSelection
  options : HighlightOptions
deriving DecidableEq, Inhabited

end SyntaxStream
