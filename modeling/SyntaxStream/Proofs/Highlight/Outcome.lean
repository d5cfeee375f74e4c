import SyntaxStream.Proofs.Highlight.Sharing
import SyntaxStream.Proofs.Theme.Coloring
import SyntaxStream.Proofs.Transform.Stable

namespace SyntaxStream

namespace Theme

theorem id_of_ofYaml {id text : String} {theme : Theme} (h : ofYaml id text = .ok theme) :
    theme.id = id := by
  unfold ofYaml at h
  split at h
  · exact id_of_ofData h
  · cases h

end Theme

namespace ThemeLibrary

variable {library : ThemeLibrary} {ids : List String} {id : String}

def Loads (library : ThemeLibrary) (id : String) : Prop := ∃ theme, library.load id = .ok theme

-- Of some ids the first that cannot be loaded, and why.
def FirstFailure (library : ThemeLibrary) (ids : List String) (id : String)
    (reason : ThemeError) : Prop :=
  ∃ before after, ids = before ++ id :: after ∧ (∀ earlier ∈ before, library.Loads earlier) ∧
    library.load id = .error reason

theorem loads_or_fails (library : ThemeLibrary) (id : String) :
    library.Loads id ∨ ∃ reason, library.load id = .error reason := by
  cases h : library.load id with
  | ok theme => exact Or.inl ⟨theme, h⟩
  | error reason => exact Or.inr ⟨reason, rfl⟩

theorem loads_or_firstFailure (library : ThemeLibrary) (ids : List String) :
    (∀ id ∈ ids, library.Loads id) ∨ ∃ id reason, library.FirstFailure ids id reason := by
  induction ids with
  | nil => exact Or.inl (by simp)
  | cons id rest ih =>
    rcases library.loads_or_fails id with hid | ⟨reason, hid⟩
    · refine ih.imp (fun hrest => List.forall_mem_cons.mpr ⟨hid, hrest⟩) ?_
      rintro ⟨other, reason, before, after, rfl, hbefore, hother⟩
      exact ⟨other, reason, id :: before, after, rfl,
        List.forall_mem_cons.mpr ⟨hid, hbefore⟩, hother⟩
    · exact Or.inr ⟨id, reason, [], rest, rfl, by simp, hid⟩

theorem FirstFailure.mem {reason : ThemeError} (h : library.FirstFailure ids id reason) :
    id ∈ ids ∧ library.load id = .error reason := by
  obtain ⟨before, after, rfl, -, hid⟩ := h
  exact ⟨by simp, hid⟩

theorem id_of_load {theme : Theme} (h : library.load id = .ok theme) : theme.id = id := by
  simp only [load] at h
  split at h
  · cases h
  · split at h
    · rename_i entry _
      rw [Theme.ofFile] at h
      cases hread : entry.read with
      | ok content =>
        rw [hread] at h
        exact Theme.id_of_ofYaml h
      | error reason =>
        rw [hread] at h
        cases h
    · unfold Theme.ofBuiltin at h
      split at h
      · exact Theme.id_of_ofData h
      · cases h

end ThemeLibrary

namespace Tokenizer

variable {library : ThemeLibrary} {themes : List (String × Theme)} {seen ids : List String}
  {id : String} {tokenizer : Tokenizer} {language : Language}

theorem exists_addTheme (hl : library.Loads id) (themes : List (String × Theme)) :
    ∃ themes', Tokenizer.addTheme library themes id = .ok themes' := by
  obtain ⟨theme, hl⟩ := hl
  unfold Tokenizer.addTheme
  split
  · exact ⟨_, rfl⟩
  · rw [hl]
    exact ⟨_, rfl⟩

theorem exists_addThemes (hl : ∀ id ∈ ids, library.Loads id) (themes : List (String × Theme)) :
    ∃ themes', ids.foldlM (Tokenizer.addTheme library) themes = .ok themes' := by
  induction ids generalizing themes with
  | nil => exact ⟨themes, rfl⟩
  | cons id rest ih =>
    obtain ⟨hid, hrest⟩ := List.forall_mem_cons.mp hl
    obtain ⟨first, hfirst⟩ := exists_addTheme hid themes
    rw [List.foldlM_cons, hfirst]
    exact ih hrest first

-- What is kept was loaded, so that an id that cannot be loaded is not passed over.
theorem Holds.addTheme_error (h : Holds library seen themes) {reason : ThemeError}
    (hl : library.load id = .error reason) :
    Tokenizer.addTheme library themes id = .error (.initialization (.theme reason)) := by
  have hnone : themes.lookup id = none := by
    cases hkept : themes.lookup id with
    | none => rfl
    | some theme =>
      have hload := ((h id theme).mp hkept).2
      rw [hl] at hload
      cases hload
  simp [Tokenizer.addTheme, hnone, hl]

theorem Holds.addThemes_error (h : Holds library seen themes) {reason : ThemeError}
    (hf : library.FirstFailure ids id reason) :
    ids.foldlM (Tokenizer.addTheme library) themes = .error (.initialization (.theme reason)) := by
  obtain ⟨before, after, rfl, hbefore, hid⟩ := hf
  obtain ⟨themes', hthemes⟩ := exists_addThemes hbefore themes
  have hholds := h.addThemes hthemes
  rw [List.foldlM_append, hthemes]
  simp only [bind, Except.bind, List.foldlM_cons, hholds.addTheme_error hid]

theorem build_of_firstFailure {reason : ThemeError} (language : Language)
    (hf : library.FirstFailure ids id reason) :
    build library ids [language.name] = .error (.initialization (.theme reason)) := by
  rw [build_eq library language (List.ne_nil_of_mem hf.mem.1),
    (holds_nil library).addThemes_error hf]
  rfl

theorem exists_build (language : Language) (hids : ids ≠ [])
    (hl : ∀ id ∈ ids, library.Loads id) :
    ∃ tokenizer, build library ids [language.name] = .ok tokenizer := by
  obtain ⟨themes, hthemes⟩ := exists_addThemes hl []
  rw [build_eq library language hids, hthemes]
  exact ⟨_, rfl⟩

end Tokenizer

namespace ThemeSelection

-- The primary variant, which is the one of that name or else the first by name, then the others
-- by name. Without any variant the fallback theme is the primary one.
def inOrder : ThemeSelection → List (String × String)
  | single id => [(primaryName, id)]
  | variants themes =>
    if themes.isEmpty then [(primaryName, Theme.fallbackId)]
    else
      themes.entries.filter (fun entry => entry.1 == primaryName) ++
        themes.entries.filter fun entry => entry.1 != primaryName

def idsInOrder (selection : ThemeSelection) : List String :=
  (selection.inOrder.map (·.2)).eraseDups

end ThemeSelection

theorem Dict.filter_key {α : Type} (d : Dict α) (key : String) :
    d.entries.filter (fun entry => entry.1 == key) =
      (d.get? key).toList.map fun value => (key, value) := by
  obtain ⟨entries, hsorted⟩ := d
  simp only [Dict.get?]
  induction entries with
  | nil => rfl
  | cons head rest ih =>
    obtain ⟨k, v⟩ := head
    obtain ⟨hlt, hrest⟩ := List.pairwise_cons.mp hsorted
    rw [List.lookup_cons]
    by_cases hk : k = key
    · subst hk
      have hnone : rest.filter (fun entry => entry.1 == k) = [] := by
        rw [List.filter_eq_nil_iff]
        intro entry hm he
        exact String.ne_of_lt (hlt entry hm) (eq_of_beq he).symm
      simp [hnone]
    · have hne : (key == k) = false := beq_false_of_ne (Ne.symm hk)
      rw [hne, ← ih hrest, List.filter_cons_of_neg (by simpa using hk)]

namespace ThemeSelection

theorem pairs_eq_inOrder (selection : ThemeSelection) : selection.pairs = selection.inOrder := by
  cases selection with
  | single id => rfl
  | variants themes =>
    rw [pairs, inOrder, Dict.filter_key]
    cases hprimary : themes.get? primaryName with
    | some id =>
      have hne : themes.isEmpty = false := by
        rw [Dict.isEmpty, List.isEmpty_eq_false_iff]
        intro hentries
        rw [Dict.get?, hentries] at hprimary
        cases hprimary
      rw [hne]
      rfl
    | none =>
      have hothers : themes.entries.filter (fun entry => entry.1 != primaryName) =
          themes.entries := by
        rw [List.filter_eq_self]
        intro entry hm
        have hdiffers := List.lookup_eq_none_iff.mp hprimary entry hm
        rwa [bne_comm]
      rw [hothers]
      rfl

theorem themeIds_eq_idsInOrder (selection : ThemeSelection) :
    selection.themeIds = selection.idsInOrder := by
  rw [themeIds, idsInOrder, pairs_eq_inOrder]

example : (variants (Dict.ofList [("a", "x"), ("default", "y"), ("z", "x")])).idsInOrder =
    ["y", "x"] := by decide +kernel

end ThemeSelection

namespace Tokenizer

variable {library : ThemeLibrary} {ids : List String} {id : String} {tokenizer : Tokenizer}
  {language : Language}

theorem theme_of_build {theme : Theme} (hids : ids ≠ [])
    (hb : build library ids [language.name] = .ok tokenizer) :
    tokenizer.theme id = .ok theme ↔ id ∈ ids ∧ library.load id = .ok theme := by
  rw [theme_eq_ok_iff]
  exact (contents_of_build hids hb).2 id theme

theorem loads_of_build (hb : build library ids [language.name] = .ok tokenizer) :
    ∀ id ∈ ids, library.Loads id := by
  rcases library.loads_or_firstFailure ids with hl | ⟨id, reason, hf⟩
  · exact hl
  · rw [build_of_firstFailure language hf] at hb
    cases hb

end Tokenizer

-- Variants with their themes, as a library has them.
def ThemeLibrary.Supplies (library : ThemeLibrary) (pairs : List (String × String))
    (themes : List Render.NamedTheme) : Prop :=
  List.Forall₂ (fun entry named => named.1 = entry.1 ∧ library.load entry.2 = .ok named.2)
    pairs themes

namespace ThemeLibrary

variable {library : ThemeLibrary} {pairs : List (String × String)}
  {themes : List Render.NamedTheme}

theorem exists_supplies (hl : ∀ entry ∈ pairs, library.Loads entry.2) :
    ∃ themes, library.Supplies pairs themes := by
  induction pairs with
  | nil => exact ⟨[], .nil⟩
  | cons entry rest ih =>
    obtain ⟨hentry, hrest⟩ := List.forall_mem_cons.mp hl
    obtain ⟨theme, htheme⟩ := hentry
    obtain ⟨themes, hthemes⟩ := ih hrest
    exact ⟨(entry.1, theme) :: themes, .cons ⟨rfl, htheme⟩ hthemes⟩

theorem Supplies.ids (h : library.Supplies pairs themes) :
    themes.map (·.2.id) = pairs.map (·.2) := by
  induction h with
  | nil => rfl
  | cons hentry _ ih => rw [List.map_cons, List.map_cons, ih, id_of_load hentry.2]

theorem Supplies.names (h : library.Supplies pairs themes) :
    themes.map (·.1) = pairs.map (·.1) := by
  induction h with
  | nil => rfl
  | cons hentry _ ih => rw [List.map_cons, List.map_cons, ih, hentry.1]

end ThemeLibrary

@[simp] theorem HighlightResult.isPlain_plain (code : String) : (plain code).isPlain = true := rfl

namespace LocalHighlighter

variable {σ : Type} {library : ThemeLibrary} {request : HighlightRequest} {language : Language}
  {tokenizer : Tokenizer} {themes : List Render.NamedTheme}

-- A highlighting with the tokenizer it needs, in which every operation that needs its arguments to
-- be in range gives nothing otherwise. Rendering has no such operation.
def highlightWith? (parser : SyntaxParser σ) (tokenizer : Tokenizer) (language : Language)
    (request : HighlightRequest) (s : σ) : Option (Except HighlightError HighlightResult × σ) :=
  let pairs := request.theme.pairs
  match pairs.mapM fun (variant, id) => return (variant, ← tokenizer.theme id) with
  | .error reason => some (.error reason, s)
  | .ok themes => do
    let primary ← pairs[0]?
    match Transform.new tokenizer language primary.2 false with
    | .error reason => return (.error reason, s)
    | .ok start =>
      let (pushed, transform, s) ← start.push? parser request.code s
      let (flushed, _, s) ← transform.flush? parser s
      return (.ok (Render.result themes request.options
        ((TokenBuffer.empty.applyAll pushed).applyAll flushed).tokens), s)

theorem named_of_supplies {ids : List String} {pairs : List (String × String)}
    (hb : Tokenizer.build library ids [language.name] = .ok tokenizer)
    (hmem : ∀ entry ∈ pairs, entry.2 ∈ ids) (h : library.Supplies pairs themes) :
    pairs.mapM (fun (variant, id) => return (variant, ← tokenizer.theme id)) = .ok themes := by
  rw [mapM_eq_ok_iff]
  induction h with
  | nil => exact .nil
  | @cons entry named _ _ hentry _ ih =>
    obtain ⟨hm, hrest⟩ := List.forall_mem_cons.mp hmem
    obtain ⟨variant, id⟩ := entry
    obtain ⟨rfl, hload⟩ := hentry
    have hfound := (Tokenizer.theme_of_build (List.ne_nil_of_mem hm) hb).mpr ⟨hm, hload⟩
    refine .cons ?_ (ih hrest)
    simp only [hfound]
    rfl

-- With the tokenizer that is built for it nothing can fail in a highlighting. All themes of its
-- variants are there, and it starts with the primary one.
theorem highlightWith_of_build (hb : Tokenizer.build library request.theme.themeIds
      [language.name] = .ok tokenizer) (parser : SyntaxParser σ) (s : σ) :
    ∃ primary others themes start,
      request.theme.pairs = primary :: others ∧
      library.Supplies request.theme.pairs themes ∧
      Transform.new tokenizer language primary.2 false = .ok start ∧
      library.load primary.2 = .ok start.theme ∧
      highlightWith parser tokenizer language request s =
        (.ok (Render.result themes request.options (blockTokens parser start request.code s).1),
          (blockTokens parser start request.code s).2) ∧
      highlightWith? parser tokenizer language request s =
        some (highlightWith parser tokenizer language request s) := by
  have hids := request.theme.themeIds_ne_nil
  have hmem : ∀ entry ∈ request.theme.pairs, entry.2 ∈ request.theme.themeIds := fun entry hm =>
    List.mem_eraseDups.mpr (List.mem_map_of_mem hm)
  have hloads := Tokenizer.loads_of_build hb
  obtain ⟨themes, hthemes⟩ :=
    ThemeLibrary.exists_supplies fun entry hm => hloads entry.2 (hmem entry hm)
  obtain ⟨primary, others, hpairs⟩ := List.exists_cons_of_ne_nil request.theme.pairs_ne_nil
  have hnamed := named_of_supplies hb hmem hthemes
  have hprimary := hmem primary (hpairs ▸ List.mem_cons_self)
  obtain ⟨theme, htheme⟩ := hloads primary.2 hprimary
  have hfound := (Tokenizer.theme_of_build hids hb).mpr ⟨hprimary, htheme⟩
  have hlanguages := (Tokenizer.contents_of_build hids hb).1
  have hnew : ∃ start, Transform.new tokenizer language primary.2 false = .ok start := by
    simp [Transform.new, Tokenizer.parses, Tokenizer.supports, hlanguages, hfound, bind,
      Except.bind, pure, Except.pure]
  obtain ⟨start, hnew⟩ := hnew
  have hstart := ((Tokenizer.theme_of_build hids hb).mp (Transform.theme_of_new hnew)).2
  refine ⟨primary, others, themes, start, hpairs, hthemes, hnew, hstart, ?_, ?_⟩
  · simp only [highlightWith]
    rw [hnamed, hpairs]
    simp only [List.map_cons, List.headD_cons, hnew, bind, Except.bind, pure, Except.pure]
  · simp only [highlightWith?, highlightWith]
    rw [hnamed, hpairs]
    simp only [List.map_cons, List.headD_cons, List.getElem?_cons_zero, hnew, bind, Except.bind,
      pure, Except.pure, Option.bind]
    have hd := Transform.delivering_of_new hnew
    rw [hd.push?_eq parser]
    simp only
    rw [(hd.push parser request.code s).1.flush?_eq parser]
    rfl

theorem className_result (h : library.Supplies request.theme.pairs themes)
    (options : HighlightOptions) (tokens : List Token) :
    (Render.result themes options tokens).className =
      " ".intercalate ("shiki" :: request.theme.idsInOrder) := by
  rw [Render.result, Render.wrapperClass, h.ids, ThemeSelection.pairs_eq_inOrder]
  rfl

theorem isPlain_of_className {result : HighlightResult} {ids : List String}
    (h : result.className = " ".intercalate ("shiki" :: ids)) : result.isPlain = false := by
  have hne : result.className.isEmpty = false := by
    rw [h]
    cases ids <;> simp
  simp [HighlightResult.isPlain, hne]

theorem highlightAnew_of_build (hlang : Language.ofName? request.lang = some language)
    (hb : Tokenizer.build library request.theme.themeIds [language.name] = .ok tokenizer)
    (parser : SyntaxParser σ) (s : σ) :
    highlightAnew parser library request s = highlightWith parser tokenizer language request s := by
  simp only [highlightAnew, hlang, hb]

-- A highlighting that succeeds renders the tokens of the block with the themes of the variants.
theorem exists_rendering {h : LocalHighlighter} {parser : SyntaxParser σ} {s : σ}
    {result : HighlightResult} (hf : h.Faithful library)
    (hok : (h.highlight parser library request s).1 = .ok result) :
    ∃ language tokenizer primary others themes start,
      Language.ofName? request.lang = some language ∧
      request.theme.pairs = primary :: others ∧
      library.Supplies request.theme.pairs themes ∧
      Transform.new tokenizer language primary.2 false = .ok start ∧
      library.load primary.2 = .ok start.theme ∧
      result = Render.result themes request.options
        (blockTokens parser start request.code s).1 := by
  rw [(highlight_of_faithful hf parser request s).1] at hok
  cases hlang : Language.ofName? request.lang with
  | none =>
    simp only [highlightAnew, hlang] at hok
    cases hok
  | some language =>
    cases hb : Tokenizer.build library request.theme.themeIds [language.name] with
    | error reason =>
      simp only [highlightAnew, hlang, hb] at hok
      cases hok
    | ok tokenizer =>
      obtain ⟨primary, others, themes, start, hpairs, hthemes, hnew, hload, hanswer, -⟩ :=
        highlightWith_of_build hb parser s
      rw [highlightAnew_of_build hlang hb, hanswer] at hok
      exact ⟨language, tokenizer, primary, others, themes, start, rfl, hpairs, hthemes, hnew,
        hload, (Except.ok.inj hok).symm⟩

-- The ways a highlighting can come out. The language is looked up before the themes are loaded,
-- and the themes in the order of their ids.
inductive Outcome (library : ThemeLibrary) (request : HighlightRequest) :
    Except HighlightError HighlightResult → Prop
  | unknown (hlang : Language.ofName? request.lang = none) :
      Outcome library request (.error (.initialization (.unsupportedLanguage request.lang)))
  | failed {language : Language} {id : String} {reason : ThemeError}
      (hlang : Language.ofName? request.lang = some language)
      (hf : library.FirstFailure request.theme.idsInOrder id reason) :
      Outcome library request (.error (.initialization (.theme reason)))
  | highlighted {language : Language} {result : HighlightResult}
      (hlang : Language.ofName? request.lang = some language)
      (hl : ∀ id ∈ request.theme.idsInOrder, library.Loads id)
      (hclass : result.className = " ".intercalate ("shiki" :: request.theme.idsInOrder)) :
      Outcome library request (.ok result)

theorem outcome_highlightAnew (parser : SyntaxParser σ) (library : ThemeLibrary)
    (request : HighlightRequest) (s : σ) :
    Outcome library request (highlightAnew parser library request s).1 := by
  cases hlang : Language.ofName? request.lang with
  | none =>
    simp only [highlightAnew, hlang]
    exact .unknown hlang
  | some language =>
    rcases library.loads_or_firstFailure request.theme.idsInOrder with hl | ⟨id, reason, hf⟩
    · have hids := request.theme.themeIds_ne_nil
      rw [← request.theme.themeIds_eq_idsInOrder] at hl
      obtain ⟨tokenizer, hb⟩ := Tokenizer.exists_build language hids hl
      obtain ⟨_, _, _, _, -, hthemes, -, -, hanswer, -⟩ := highlightWith_of_build hb parser s
      rw [highlightAnew_of_build hlang hb, hanswer]
      rw [request.theme.themeIds_eq_idsInOrder] at hl
      exact .highlighted hlang hl (className_result hthemes request.options _)
    · have hb := Tokenizer.build_of_firstFailure language hf
      rw [← request.theme.themeIds_eq_idsInOrder] at hb
      simp only [highlightAnew, hlang, hb]
      exact .failed hlang hf

end LocalHighlighter

-- The language of a request is unknown, or one of its themes cannot be loaded.
def HighlightRequest.Refused (library : ThemeLibrary) (request : HighlightRequest) : Prop :=
  Language.ofName? request.lang = none ∨ ∃ id ∈ request.theme.idsInOrder, ¬ library.Loads id

namespace LocalHighlighter

variable {σ : Type} {library : ThemeLibrary} {request : HighlightRequest}
  {outcome : Except HighlightError HighlightResult}

theorem Outcome.refused_iff (h : Outcome library request outcome) :
    request.Refused library ↔ ∃ error, outcome = .error error := by
  cases h with
  | unknown hlang => exact iff_of_true (Or.inl hlang) ⟨_, rfl⟩
  | @failed language id reason hlang hf =>
    obtain ⟨hm, hload⟩ := hf.mem
    refine iff_of_true (Or.inr ⟨id, hm, ?_⟩) ⟨_, rfl⟩
    rintro ⟨theme, htheme⟩
    rw [hload] at htheme
    cases htheme
  | highlighted hlang hl hclass =>
    refine iff_of_false ?_ (by simp)
    rintro (hnone | ⟨id, hm, hid⟩)
    · rw [hlang] at hnone
      cases hnone
    · exact hid (hl id hm)

theorem Outcome.isPlain_iff {shown : HighlightResult} (h : Outcome library request outcome)
    (hshown : shown = orPlain request.code outcome) :
    shown.isPlain = false ↔ ¬ request.Refused library := by
  rw [h.refused_iff, hshown]
  cases h with
  | unknown hlang => exact iff_of_false (by simp [orPlain]) (not_not_intro ⟨_, rfl⟩)
  | failed hlang hf => exact iff_of_false (by simp [orPlain]) (not_not_intro ⟨_, rfl⟩)
  | highlighted hlang hl hclass => exact iff_of_true (isPlain_of_className hclass) (by simp)

theorem Outcome.plain_iff {shown : HighlightResult} (h : Outcome library request outcome)
    (hshown : shown = orPlain request.code outcome) :
    shown = .plain request.code ↔ request.Refused library := by
  constructor
  · intro hplain
    by_contra hserved
    have hne := (h.isPlain_iff hshown).mpr hserved
    rw [hplain, HighlightResult.isPlain_plain] at hne
    cases hne
  · intro hrefused
    obtain ⟨error, rfl⟩ := h.refused_iff.mp hrefused
    exact hshown

theorem message_unsupportedLanguage [Diagnostics] (name : String) :
    (HighlightError.initialization (.unsupportedLanguage name)).message =
      "failed to initialize tokenizer: unsupported language: " ++ name := by
  have hwords : "failed to initialize tokenizer: unsupported language: " =
      "failed to initialize tokenizer: " ++ "unsupported language: " := by decide +kernel
  rw [hwords, String.append_assoc]
  rfl

-- A highlighting fails for an unknown language or a theme that cannot be loaded, and for nothing
-- else: the first such reason is the error. Once there is a tokenizer no step of it can fail. A
-- resolution gives the plain code where it fails, and what is never plain otherwise.
theorem highlight_fails_exactly [Diagnostics] (parser : SyntaxParser σ) (library : ThemeLibrary)
    (request : HighlightRequest) (s : σ) :
    let outcome := (fresh.highlight parser library request s).1
    let shown := (fresh.resolve parser library request s).1
    let ids := request.theme.idsInOrder
    ((∃ error, outcome = .error error) ↔ request.Refused library) ∧
    (∀ error, outcome = .error error →
      (Language.ofName? request.lang = none ∧
        error = .initialization (.unsupportedLanguage request.lang) ∧
        error.message = "failed to initialize tokenizer: unsupported language: " ++ request.lang) ∨
      (Language.ofName? request.lang ≠ none ∧
        ∃ id reason, library.FirstFailure ids id reason ∧
          error = .initialization (.theme reason) ∧
          error.message = "failed to initialize tokenizer: " ++ reason.message)) ∧
    (∀ language tokenizer, Language.ofName? request.lang = some language →
      Tokenizer.build library ids [language.name] = .ok tokenizer →
      ∃ result s', highlightWith? parser tokenizer language request s = some (.ok result, s') ∧
        highlightWith parser tokenizer language request s = (.ok result, s') ∧
        outcome = .ok result) ∧
    (∀ result, outcome = .ok result → result.className = " ".intercalate ("shiki" :: ids)) ∧
    (shown = .plain request.code ↔ request.Refused library) ∧
    (shown.isPlain = false ↔ ¬ request.Refused library) := by
  intro outcome shown ids
  have hanew : outcome = (highlightAnew parser library request s).1 :=
    (highlight_of_faithful (faithful_fresh library) parser request s).1
  have hshown : shown = orPlain request.code outcome := by
    simp only [shown, outcome, resolve_eq]
  have houtcome : Outcome library request outcome := by
    rw [hanew]
    exact outcome_highlightAnew parser library request s
  clear_value outcome shown
  refine ⟨houtcome.refused_iff.symm, fun error herror => ?_, fun language tokenizer hlang hb => ?_,
    fun result hresult => ?_, houtcome.plain_iff hshown, houtcome.isPlain_iff hshown⟩
  · rw [herror] at houtcome
    cases houtcome with
    | unknown hlang => exact Or.inl ⟨hlang, rfl, message_unsupportedLanguage request.lang⟩
    | @failed language id reason hlang hf =>
      exact Or.inr ⟨by rw [hlang]; simp, id, reason, hf, rfl, rfl⟩
  · rw [show ids = _ from request.theme.themeIds_eq_idsInOrder.symm] at hb
    obtain ⟨_, _, _, _, -, -, -, -, hanswer, hguarded⟩ := highlightWith_of_build hb parser s
    rw [highlightAnew_of_build hlang hb, hanswer] at hanew
    exact ⟨_, _, hguarded.trans (congrArg some hanswer), hanswer, hanew⟩
  · rw [hresult] at houtcome
    cases houtcome with
    | highlighted hlang hl hclass => exact hclass

end LocalHighlighter

end SyntaxStream
