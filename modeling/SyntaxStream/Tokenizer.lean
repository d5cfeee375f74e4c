import SyntaxStream.Segment
import SyntaxStream.SyntaxParser
import SyntaxStream.Theme.Library

namespace SyntaxStream

-- The languages and themes that were loaded. A tokenizer never changes once it is built.
structure Tokenizer where
  languages : List Language
  themes : List (String × Theme)
deriving Repr, DecidableEq, Inhabited

namespace Tokenizer

-- Loads a language by its name; one that is already there stays where it is.
def addLanguage (languages : List Language) (name : String) :
    Except HighlightError (List Language) :=
  match Language.ofName? name with
  | none => .error (.initialization (.unsupportedLanguage name))
  | some language =>
    .ok (if languages.contains language then languages else languages ++ [language])

-- Loads a theme by its id; one that is already there is not loaded again.
def addTheme (library : ThemeLibrary) (themes : List (String × Theme)) (id : String) :
    Except HighlightError (List (String × Theme)) :=
  if (themes.lookup id).isSome then .ok themes
  else match library.load id with
    | .ok theme => .ok (themes ++ [(id, theme)])
    | .error reason => .error (.initialization (.theme reason))

-- Loads languages, then themes. Without any theme id the fallback theme is loaded.
def build (library : ThemeLibrary) (themeIds : List String) (names : List String) :
    Except HighlightError Tokenizer := do
  let languages ← names.foldlM addLanguage []
  let ids := if themeIds.isEmpty then [Theme.fallbackId] else themeIds
  let themes ← ids.foldlM (addTheme library) []
  return { languages, themes }

def supports (t : Tokenizer) (language : Language) : Bool :=
  t.languages.contains language

def theme (t : Tokenizer) (id : String) : Except HighlightError Theme :=
  match t.themes.lookup id with
  | some theme => .ok theme
  | none => .error (.initialization (.themeNotLoaded id))

-- Whether texts of a loaded language are parsed.
def parses (t : Tokenizer) (language : Language) : Except HighlightError Bool :=
  if t.supports language then .ok language.hasGrammar
  else .error (.initialization (.languageNotLoaded language))

variable {σ : Type}

-- Splits a window of a text into contiguous spans. The tree is asked for its captures only if
-- there is one, the language has a grammar and the window is not empty.
def segment (parser : SyntaxParser σ) (t : Tokenizer) (language : Language) (source : String)
    (hasTree : Bool) (window : Window) (s : σ) : List Span × σ :=
  let bytes := Text.cells source.toList
  let w := window.clampTo bytes.length
  if w.isEmpty then
    ([], s)
  else if t.supports language && language.hasGrammar && hasTree then
    let (raw, s) := parser.captures w s
    (Segment.paint bytes w (Capture.ofRawList raw), s)
  else
    (Segment.paint bytes w [], s)

-- The spans of a whole text, parsed at once.
def tokenize (parser : SyntaxParser σ) (t : Tokenizer) (language : Language) (source : String)
    (s : σ) : Except HighlightError (List Span × σ) := do
  let grammar ← t.parses language
  let whole : Window := ⟨0, source.utf8ByteSize⟩
  if grammar then
    let (answer, s) := parser.parse source s
    return segment parser t language source (answer != .failed) whole s
  else
    return segment parser t language source false whole s

end Tokenizer

end SyntaxStream
