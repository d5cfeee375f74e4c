import SyntaxStream.Highlight.Dispatch
import SyntaxStream.Markdown.CodeBlock

namespace SyntaxStream

-- Something that highlights blocks and never fails. Its state is whatever it keeps.
structure Highlighter (η : Type) where
  resolve : HighlightRequest → η → HighlightResult × η

namespace Highlighter

variable {σ τ : Type}

def offline (parser : SyntaxParser σ) (library : ThemeLibrary) :
    Highlighter (LocalHighlighter × σ) where
  resolve request state :=
    let (result, h, s) := state.1.resolve parser library request state.2
    (result, h, s)

def remoteFirst (parser : SyntaxParser σ) (library : ThemeLibrary) (transport : Transport τ) :
    Highlighter (DefaultHighlighter × σ × τ) where
  resolve request state :=
    let (h, s, t) := state
    h.resolve parser library transport request s t

end Highlighter

-- Highlights the code of documents with one selection of themes.
structure HighlightPlugin where
  theme : ThemeSelection
deriving DecidableEq, Inhabited

namespace HighlightPlugin

-- Without a selection nothing in particular is selected.
def new (theme : Option ThemeSelection) : HighlightPlugin := ⟨theme.getD .unspecified⟩

variable {η : Type}

def request (plugin : HighlightPlugin) (block : CodeBlock) : HighlightRequest :=
  ⟨block.code, block.lang, plugin.theme, block.options⟩

def highlightBlocks (highlighter : Highlighter η) (plugin : HighlightPlugin) :
    List CodeBlock → η → List (CodeBlock × HighlightResult) × η
  | [], state => ([], state)
  | block :: rest, state =>
    let (result, state) := highlighter.resolve (plugin.request block) state
    let (results, state) := highlightBlocks highlighter plugin rest state
    ((block, result) :: results, state)

def highlightMarkdown (highlighter : Highlighter η) (plugin : HighlightPlugin)
    (document : String) (state : η) : List (CodeBlock × HighlightResult) × η :=
  highlightBlocks highlighter plugin (CodeBlock.all document) state

end HighlightPlugin

def ThemeSelection.describe : ThemeSelection → String
  | .single id => "Named(" ++ Text.quoted id ++ ")"
  | .variants themes =>
    "Multi(\x7b" ++ ", ".intercalate (themes.entries.map fun (variant, id) =>
      Text.quoted variant ++ ": " ++ Text.quoted id) ++ "\x7d)"

def HighlightPlugin.describe (plugin : HighlightPlugin) : String :=
  "HighlightPlugin \x7b theme: " ++ plugin.theme.describe ++ ", .. \x7d"

end SyntaxStream
