import SyntaxStream.Highlight.Render
import SyntaxStream.Transform

namespace SyntaxStream

structure TokenizerKey where
  language : Language
  themeIds : List String
deriving Repr, DecidableEq, Inhabited

-- Highlights whole blocks. Every tokenizer that could be built is kept.
structure LocalHighlighter where
  tokenizers : List (TokenizerKey × Tokenizer)
deriving Repr, Inhabited

namespace LocalHighlighter

def fresh : LocalHighlighter := ⟨[]⟩

def tokenizer (library : ThemeLibrary) (h : LocalHighlighter) (key : TokenizerKey) :
    Except HighlightError Tokenizer × LocalHighlighter :=
  match h.tokenizers.lookup key with
  | some tokenizer => (.ok tokenizer, h)
  | none =>
    match Tokenizer.build library key.themeIds [key.language.name] with
    | .ok tokenizer => (.ok tokenizer, ⟨(key, tokenizer) :: h.tokenizers⟩)
    | .error reason => (.error reason, h)

variable {σ : Type}

-- The tokens of a block: all of it is pushed at once to a transform that takes nothing back.
def blockTokens (parser : SyntaxParser σ) (transform : Transform) (code : String) (s : σ) :
    List Token × σ :=
  let (pushed, transform, s) := transform.push parser code s
  let (flushed, _, s) := transform.flush parser s
  (((TokenBuffer.empty.applyAll pushed).applyAll flushed).tokens, s)

def highlightWith (parser : SyntaxParser σ) (tokenizer : Tokenizer) (language : Language)
    (request : HighlightRequest) (s : σ) : Except HighlightError HighlightResult × σ :=
  let prepared : Except HighlightError (List Render.NamedTheme × Transform) := do
    let pairs := request.theme.pairs
    let themes ← pairs.mapM fun (variant, id) => do return (variant, ← tokenizer.theme id)
    let primaryId := (pairs.map (·.2)).headD Theme.fallbackId
    return (themes, ← Transform.new tokenizer language primaryId false)
  match prepared with
  | .error reason => (.error reason, s)
  | .ok (themes, transform) =>
    let (tokens, s) := blockTokens parser transform request.code s
    (.ok (Render.result themes request.options tokens), s)

-- Highlights a block. Fails if its language is unknown or one of its themes cannot be loaded.
def highlight (parser : SyntaxParser σ) (library : ThemeLibrary) (h : LocalHighlighter)
    (request : HighlightRequest) (s : σ) :
    Except HighlightError HighlightResult × LocalHighlighter × σ :=
  match Language.ofName? request.lang with
  | none => (.error (.initialization (.unsupportedLanguage request.lang)), h, s)
  | some language =>
    match h.tokenizer library ⟨language, request.theme.themeIds⟩ with
    | (.error reason, h) => (.error reason, h, s)
    | (.ok tokenizer, h) =>
      let (result, s) := highlightWith parser tokenizer language request s
      (result, h, s)

-- The highlighted block, or the plain code where it cannot be highlighted.
def orPlain (code : String) : Except HighlightError HighlightResult → HighlightResult
  | .ok result => result
  | .error _ => .plain code

def resolve (parser : SyntaxParser σ) (library : ThemeLibrary) (h : LocalHighlighter)
    (request : HighlightRequest) (s : σ) : HighlightResult × LocalHighlighter × σ :=
  let (result, h, s) := h.highlight parser library request s
  (orPlain request.code result, h, s)

end LocalHighlighter

end SyntaxStream
