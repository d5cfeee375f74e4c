import SyntaxStream.Highlight.Local

namespace SyntaxStream

theorem exists_of_isOk {ε α : Type} {outcome : Except ε α} (h : outcome.isOk = true) :
    ∃ result, outcome = .ok result := by
  cases outcome with
  | error reason => cases h
  | ok result => exact ⟨result, rfl⟩

namespace LocalHighlighter

variable {σ : Type} {library : ThemeLibrary} {h : LocalHighlighter}

-- A highlighter that keeps nothing but what would be built again.
def Faithful (library : ThemeLibrary) (h : LocalHighlighter) : Prop :=
  ∀ key tokenizer, h.tokenizers.lookup key = some tokenizer →
    Tokenizer.build library key.themeIds [key.language.name] = .ok tokenizer

theorem faithful_fresh (library : ThemeLibrary) : Faithful library fresh := by
  intro key tokenizer hl
  cases hl

theorem tokenizer_of_faithful (hf : h.Faithful library) (key : TokenizerKey) :
    (h.tokenizer library key).1 =
      Tokenizer.build library key.themeIds [key.language.name] := by
  unfold tokenizer
  split
  · exact (hf key _ ‹_›).symm
  · split
    · exact Eq.symm ‹_›
    · exact Eq.symm ‹_›

-- Only what was built is kept, under the key it was built for.
theorem Faithful.tokenizer (hf : h.Faithful library) (key : TokenizerKey) :
    (h.tokenizer library key).2.Faithful library := by
  unfold LocalHighlighter.tokenizer
  split
  · exact hf
  · split
    · rename_i built hbuilt
      intro other found hl
      rw [List.lookup_cons] at hl
      split at hl
      · rename_i hkey
        obtain rfl : other = key := eq_of_beq hkey
        obtain rfl := Option.some.inj hl
        exact hbuilt
      · exact hf other found hl
    · exact hf

theorem highlight_of_unknown {request : HighlightRequest}
    (hl : Language.ofName? request.lang = none) (parser : SyntaxParser σ) (s : σ) :
    h.highlight parser library request s =
      (.error (.initialization (.unsupportedLanguage request.lang)), h, s) := by
  rw [highlight, hl]

-- A highlighting without what earlier ones kept.
def highlightAnew (parser : SyntaxParser σ) (library : ThemeLibrary) (request : HighlightRequest)
    (s : σ) : Except HighlightError HighlightResult × σ :=
  match Language.ofName? request.lang with
  | none => (.error (.initialization (.unsupportedLanguage request.lang)), s)
  | some language =>
    match Tokenizer.build library request.theme.themeIds [language.name] with
    | .error reason => (.error reason, s)
    | .ok tokenizer => highlightWith parser tokenizer language request s

-- What a faithful highlighter has kept makes no difference, and it stays faithful.
theorem highlight_of_faithful (hf : h.Faithful library) (parser : SyntaxParser σ)
    (request : HighlightRequest) (s : σ) :
    (h.highlight parser library request s).1 = (highlightAnew parser library request s).1 ∧
      (h.highlight parser library request s).2.1.Faithful library ∧
      (h.highlight parser library request s).2.2 =
        (highlightAnew parser library request s).2 := by
  unfold highlight highlightAnew
  cases Language.ofName? request.lang with
  | none => exact ⟨rfl, hf, rfl⟩
  | some language =>
    have hbuilt := tokenizer_of_faithful hf ⟨language, request.theme.themeIds⟩
    have hkept := hf.tokenizer ⟨language, request.theme.themeIds⟩
    simp only at hbuilt ⊢
    rw [← hbuilt]
    generalize h.tokenizer library ⟨language, request.theme.themeIds⟩ = found at hkept
    obtain ⟨_ | built, kept⟩ := found
    · exact ⟨rfl, hkept, rfl⟩
    · exact ⟨rfl, hkept, rfl⟩

theorem resolve_eq (parser : SyntaxParser σ) (library : ThemeLibrary) (h : LocalHighlighter)
    (request : HighlightRequest) (s : σ) :
    h.resolve parser library request s =
      (orPlain request.code (h.highlight parser library request s).1,
        (h.highlight parser library request s).2) := by
  rw [resolve]

-- What holds of the plain code and of every highlighting of it holds of a resolution.
theorem holds_of_resolve {P : HighlightResult → Prop} {parser : SyntaxParser σ}
    {request : HighlightRequest} {s : σ} (hplain : P (.plain request.code))
    (hblock : ∀ result, (h.highlight parser library request s).1 = .ok result → P result) :
    P (h.resolve parser library request s).1 := by
  rw [resolve_eq]
  generalize (h.highlight parser library request s).1 = answer at hblock
  cases answer with
  | error reason => exact hplain
  | ok result => exact hblock result rfl

theorem resolve_of_faithful (hf : h.Faithful library) (parser : SyntaxParser σ)
    (request : HighlightRequest) (s : σ) :
    (h.resolve parser library request s).1 =
      orPlain request.code (highlightAnew parser library request s).1 := by
  rw [resolve_eq, (highlight_of_faithful hf parser request s).1]

theorem Faithful.resolve (hf : h.Faithful library) (parser : SyntaxParser σ)
    (request : HighlightRequest) (s : σ) :
    (h.resolve parser library request s).2.1.Faithful library := by
  have hkept := (highlight_of_faithful hf parser request s).2.1
  rw [resolve_eq]
  generalize h.highlight parser library request s = found at hkept
  exact hkept

end LocalHighlighter

end SyntaxStream
