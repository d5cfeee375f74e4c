import SyntaxStream.Proofs.Highlight.Cache

namespace SyntaxStream

theorem Language.ofName?_name (language : Language) :
    Language.ofName? language.name = some language := by
  cases language <;> decide +kernel

namespace Tokenizer

variable {library : ThemeLibrary} {themes themes' : List (String × Theme)}
  {ids seen : List String} {tokenizer : Tokenizer}

-- Themes that are those of some ids, as a library has them.
def Holds (library : ThemeLibrary) (seen : List String) (themes : List (String × Theme)) : Prop :=
  ∀ id theme, themes.lookup id = some theme ↔ id ∈ seen ∧ library.load id = .ok theme

theorem Holds.addTheme (h : Holds library seen themes) {id : String}
    (ha : Tokenizer.addTheme library themes id = .ok themes') :
    Holds library (seen ++ [id]) themes' := by
  intro other theme
  rw [List.mem_append, List.mem_singleton]
  unfold Tokenizer.addTheme at ha
  split at ha
  · rename_i hsome
    obtain rfl := Except.ok.inj ha
    obtain ⟨kept, hkept⟩ := Option.isSome_iff_exists.mp hsome
    have hid := ((h id kept).mp hkept).1
    rw [h other theme]
    constructor
    · exact fun ⟨hm, hl⟩ => ⟨Or.inl hm, hl⟩
    · rintro ⟨hm | rfl, hl⟩
      · exact ⟨hm, hl⟩
      · exact ⟨hid, hl⟩
  · rename_i hnone
    split at ha
    · rename_i loaded hload
      obtain rfl := Except.ok.inj ha
      rw [List.lookup_append]
      by_cases hid : other = id
      · subst hid
        have hn : themes.lookup other = none := Option.not_isSome_iff_eq_none.mp hnone
        simp [hn, hload]
      · have hlast : [(id, loaded)].lookup other = none := by
          rw [List.lookup_cons, beq_false_of_ne hid]
          rfl
        rw [hlast, Option.or_none, h other theme]
        simp [hid]
    · cases ha

theorem Holds.addThemes (h : Holds library seen themes)
    (ha : ids.foldlM (Tokenizer.addTheme library) themes = .ok themes') :
    Holds library (seen ++ ids) themes' := by
  induction ids generalizing seen themes with
  | nil =>
    obtain rfl := Except.ok.inj ha
    rwa [List.append_nil]
  | cons id rest ih =>
    rw [List.foldlM_cons] at ha
    cases hfirst : Tokenizer.addTheme library themes id with
    | error reason =>
      rw [hfirst] at ha
      cases ha
    | ok first =>
      rw [hfirst] at ha
      have hnext := ih (h.addTheme hfirst) ha
      rwa [List.append_assoc] at hnext

theorem theme_eq_ok_iff {id : String} {theme : Theme} :
    tokenizer.theme id = .ok theme ↔ tokenizer.themes.lookup id = some theme := by
  rw [Tokenizer.theme]
  cases tokenizer.themes.lookup id with
  | none => simp
  | some found => simp

theorem build_eq (library : ThemeLibrary) (language : Language) (hids : ids ≠ []) :
    build library ids [language.name] =
      (ids.foldlM (addTheme library) []).map fun themes => ⟨[language], themes⟩ := by
  have hempty : ids.isEmpty = false := by
    rwa [Bool.eq_false_iff, ne_eq, List.isEmpty_iff]
  have hlanguage : addLanguage [] language.name = .ok [language] := by
    rw [addLanguage, Language.ofName?_name]
    rfl
  simp only [build, List.foldlM_cons, List.foldlM_nil, hlanguage, hempty, Bool.false_eq_true,
    if_false]
  cases ids.foldlM (addTheme library) [] <;> rfl

theorem holds_nil (library : ThemeLibrary) : Holds library [] [] := by simp [Holds]

-- A tokenizer has the language and the themes it was built for, and no others.
theorem contents_of_build {language : Language} (hids : ids ≠ [])
    (h : build library ids [language.name] = .ok tokenizer) :
    tokenizer.languages = [language] ∧ Holds library ids tokenizer.themes := by
  rw [build_eq library language hids] at h
  cases hthemes : ids.foldlM (addTheme library) [] with
  | error reason =>
    rw [hthemes] at h
    cases h
  | ok themes =>
    rw [hthemes] at h
    obtain rfl := Except.ok.inj h
    exact ⟨rfl, Holds.addThemes (holds_nil library) hthemes⟩

end Tokenizer

namespace ThemeSelection

-- No selection is empty.
theorem pairs_ne_nil (selection : ThemeSelection) : selection.pairs ≠ [] := by
  cases selection with
  | single id => exact List.cons_ne_nil _ _
  | variants themes =>
    rw [pairs]
    split
    · exact List.cons_ne_nil _ _
    · split
      · exact List.cons_ne_nil _ _
      · rename_i hne
        rintro hentries
        exact hne (by rw [Dict.isEmpty, hentries]; rfl)

theorem themeIds_ne_nil (selection : ThemeSelection) : selection.themeIds ≠ [] := by
  obtain ⟨pair, rest, hcons⟩ := List.exists_cons_of_ne_nil selection.pairs_ne_nil
  rw [themeIds, hcons, List.map_cons, List.eraseDups_cons]
  exact List.cons_ne_nil _ _

end ThemeSelection

namespace LocalHighlighter

variable {σ : Type} {library : ThemeLibrary} {h : LocalHighlighter} {asked : List TokenizerKey}

-- What a caller asks of a highlighter: the block with the reason if it cannot be highlighted, or
-- a block in any case.
inductive Job (σ : Type) where
  | highlight (request : HighlightRequest) (parser : SyntaxParser σ) (start : σ)
  | resolve (request : HighlightRequest) (parser : SyntaxParser σ) (start : σ)

inductive Answer where
  | outcome (outcome : Except HighlightError HighlightResult)
  | block (block : HighlightResult)

namespace Job

def request : Job σ → HighlightRequest
  | highlight request _ _ => request
  | resolve request _ _ => request

-- The key of the tokenizer a job needs. Nothing is looked up for an unknown language.
def key? (job : Job σ) : Option TokenizerKey :=
  (Language.ofName? job.request.lang).map fun language => ⟨language, job.request.theme.themeIds⟩

-- The answer of a highlighter with what the parser is left with, and the highlighter after it.
def perform (library : ThemeLibrary) (h : LocalHighlighter) :
    Job σ → (Answer × σ) × LocalHighlighter
  | highlight request parser start =>
    let (outcome, h, s) := h.highlight parser library request start
    ((.outcome outcome, s), h)
  | resolve request parser start =>
    let (block, h, s) := h.resolve parser library request start
    ((.block block, s), h)

-- Whether the tokenizer of a job cannot be built.
def Fails (library : ThemeLibrary) (job : Job σ) : Prop :=
  ∀ key, job.key? = some key →
    ∃ reason, Tokenizer.build library key.themeIds [key.language.name] = .error reason

end Job

def performAll (library : ThemeLibrary) (h : LocalHighlighter) :
    List (Job σ) → List (Answer × σ) × LocalHighlighter
  | [] => ([], h)
  | job :: rest =>
    let (answer, h) := job.perform library h
    let (answers, h) := performAll library h rest
    (answer :: answers, h)

-- A highlighter that was asked for some tokenizers and keeps those of them that could be built,
-- each of them once.
structure Keeps (library : ThemeLibrary) (asked : List TokenizerKey) (h : LocalHighlighter) :
    Prop where
  nodup : (h.tokenizers.map (·.1)).Nodup
  lookup_iff : ∀ key tokenizer, h.tokenizers.lookup key = some tokenizer ↔
    key ∈ asked ∧ Tokenizer.build library key.themeIds [key.language.name] = .ok tokenizer

theorem keeps_fresh (library : ThemeLibrary) : Keeps library [] fresh where
  nodup := List.nodup_nil
  lookup_iff key tokenizer := by simp [fresh]

theorem Keeps.faithful (hk : Keeps library asked h) : h.Faithful library :=
  fun key tokenizer hl => ((hk.lookup_iff key tokenizer).mp hl).2

-- Nothing changes where a tokenizer was asked for before, or cannot be built.
theorem Keeps.tokenizer_eq {key : TokenizerKey} (hk : Keeps library asked h)
    (hs : key ∈ asked ∨
      ∃ reason, Tokenizer.build library key.themeIds [key.language.name] = .error reason) :
    (h.tokenizer library key).2 = h := by
  rw [LocalHighlighter.tokenizer]
  cases hl : h.tokenizers.lookup key with
  | some found => rfl
  | none =>
    cases hb : Tokenizer.build library key.themeIds [key.language.name] with
    | error reason => rfl
    | ok built =>
      obtain hm | ⟨reason, hfails⟩ := hs
      · have hfound := (hk.lookup_iff key built).mpr ⟨hm, hb⟩
        rw [hl] at hfound
        cases hfound
      · rw [hb] at hfails
        cases hfails

theorem Keeps.append {key : TokenizerKey} (hk : Keeps library asked h)
    (hs : key ∈ asked ∨
      ∃ reason, Tokenizer.build library key.themeIds [key.language.name] = .error reason) :
    Keeps library (asked ++ [key]) h := by
  refine ⟨hk.nodup, fun other found => ?_⟩
  rw [hk.lookup_iff, List.mem_append, List.mem_singleton]
  refine and_congr_left fun hb => ⟨Or.inl, ?_⟩
  rintro (ho | rfl)
  · exact ho
  · obtain hm | ⟨reason, hfails⟩ := hs
    · exact hm
    · rw [hb] at hfails
      cases hfails

theorem Keeps.cons {key : TokenizerKey} {built : Tokenizer} (hk : Keeps library asked h)
    (hm : key ∉ asked)
    (hb : Tokenizer.build library key.themeIds [key.language.name] = .ok built) :
    h.tokenizers.lookup key = none ∧
      Keeps library (asked ++ [key]) ⟨(key, built) :: h.tokenizers⟩ := by
  have hnone : h.tokenizers.lookup key = none := by
    cases hl : h.tokenizers.lookup key with
    | none => rfl
    | some found => exact absurd ((hk.lookup_iff key found).mp hl).1 hm
  refine ⟨hnone, ?_, fun other found => ?_⟩
  · rw [List.map_cons, List.nodup_cons]
    refine ⟨fun hkey => ?_, hk.nodup⟩
    obtain ⟨entry, hentry, hsame⟩ := List.mem_map.mp hkey
    have hdiffers := List.lookup_eq_none_iff.mp hnone entry hentry
    exact absurd hsame.symm (bne_iff_ne.mp hdiffers)
  · rw [List.lookup_cons, List.mem_append, List.mem_singleton]
    by_cases ho : other = key
    · subst ho
      simp [hb]
    · rw [beq_false_of_ne ho]
      simp only [hk.lookup_iff, ho, or_false]

theorem Keeps.tokenizer (hk : Keeps library asked h) (key : TokenizerKey) :
    Keeps library (asked ++ [key]) (h.tokenizer library key).2 := by
  by_cases hm : key ∈ asked
  · rw [hk.tokenizer_eq (Or.inl hm)]
    exact hk.append (Or.inl hm)
  · cases hb : Tokenizer.build library key.themeIds [key.language.name] with
    | error reason =>
      rw [hk.tokenizer_eq (Or.inr ⟨reason, hb⟩)]
      exact hk.append (Or.inr ⟨reason, hb⟩)
    | ok built =>
      obtain ⟨hnone, hcons⟩ := hk.cons hm hb
      rw [LocalHighlighter.tokenizer, hnone]
      simp only [hb]
      exact hcons

-- A highlighting leaves the highlighter its tokenizer was looked up in.
theorem highlighter_of_highlight (parser : SyntaxParser σ) (request : HighlightRequest) (s : σ) :
    (h.highlight parser library request s).2.1 =
      match Language.ofName? request.lang with
      | none => h
      | some language => (h.tokenizer library ⟨language, request.theme.themeIds⟩).2 := by
  unfold highlight
  cases Language.ofName? request.lang with
  | none => rfl
  | some language =>
    simp only
    generalize h.tokenizer library ⟨language, request.theme.themeIds⟩ = found
    obtain ⟨_ | built, kept⟩ := found
    · rfl
    · rfl

-- What a faithful highlighter has kept makes no difference to an answer.
theorem highlight_eq_fresh (hf : h.Faithful library) (parser : SyntaxParser σ)
    (request : HighlightRequest) (s : σ) :
    (h.highlight parser library request s).1 = (fresh.highlight parser library request s).1 ∧
      (h.highlight parser library request s).2.2 =
        (fresh.highlight parser library request s).2.2 := by
  obtain ⟨hanswer, -, hleft⟩ := highlight_of_faithful hf parser request s
  obtain ⟨hfresh, -, hleft'⟩ := highlight_of_faithful (faithful_fresh library) parser request s
  exact ⟨hanswer.trans hfresh.symm, hleft.trans hleft'.symm⟩

namespace Job

theorem perform_highlight (request : HighlightRequest) (parser : SyntaxParser σ) (start : σ) :
    (highlight request parser start).perform library h =
      ((.outcome (h.highlight parser library request start).1,
          (h.highlight parser library request start).2.2),
        (h.highlight parser library request start).2.1) := by
  rw [perform]

theorem perform_resolve (request : HighlightRequest) (parser : SyntaxParser σ) (start : σ) :
    (resolve request parser start).perform library h =
      ((.block (orPlain request.code (h.highlight parser library request start).1),
          (h.highlight parser library request start).2.2),
        (h.highlight parser library request start).2.1) := by
  rw [perform, resolve_eq]

theorem perform_snd (job : Job σ) :
    (job.perform library h).2 =
      match job.key? with
      | none => h
      | some key => (h.tokenizer library key).2 := by
  have hkept : (job.perform library h).2 =
      match Language.ofName? job.request.lang with
      | none => h
      | some language => (h.tokenizer library ⟨language, job.request.theme.themeIds⟩).2 := by
    cases job with
    | highlight request parser start =>
      rw [perform_highlight, highlighter_of_highlight, Job.request]
    | resolve request parser start =>
      rw [perform_resolve, highlighter_of_highlight, Job.request]
  rw [hkept, key?]
  cases Language.ofName? job.request.lang with
  | none => rfl
  | some language => rfl

theorem perform_of_faithful (job : Job σ) (hf : h.Faithful library) :
    (job.perform library h).1 = (job.perform library fresh).1 := by
  cases job with
  | highlight request parser start =>
    obtain ⟨hanswer, hleft⟩ := highlight_eq_fresh hf parser request start
    rw [perform_highlight, perform_highlight, hanswer, hleft]
  | resolve request parser start =>
    obtain ⟨hanswer, hleft⟩ := highlight_eq_fresh hf parser request start
    rw [perform_resolve, perform_resolve, hanswer, hleft]

end Job

theorem Keeps.perform (hk : Keeps library asked h) (job : Job σ) :
    Keeps library (asked ++ job.key?.toList) (job.perform library h).2 := by
  rw [job.perform_snd]
  cases job.key? with
  | none => rwa [Option.toList_none, List.append_nil]
  | some key => exact hk.tokenizer key

-- The highlighter stays as it is where nothing new can be kept.
theorem Keeps.perform_snd (hk : Keeps library asked h) {job : Job σ}
    (hs : (∀ key, job.key? = some key → key ∈ asked) ∨ job.Fails library) :
    (job.perform library h).2 = h := by
  rw [job.perform_snd]
  cases hkey : job.key? with
  | none => rfl
  | some key =>
    exact hk.tokenizer_eq (hs.imp (fun hasked => hasked key hkey) fun hfails => hfails key hkey)

theorem Keeps.performAll (hk : Keeps library asked h) (jobs : List (Job σ)) :
    (h.performAll library jobs).1 = jobs.map (fun job => (job.perform library fresh).1) ∧
      Keeps library (asked ++ jobs.filterMap Job.key?) (h.performAll library jobs).2 := by
  induction jobs generalizing h asked with
  | nil =>
    refine ⟨rfl, ?_⟩
    rwa [List.filterMap_nil, List.append_nil]
  | cons job rest ih =>
    obtain ⟨hanswers, hkept⟩ := ih (hk.perform job)
    have hkeys : (job :: rest).filterMap Job.key? =
        job.key?.toList ++ rest.filterMap Job.key? := by
      rw [List.filterMap_cons]
      cases job.key? with
      | none => rfl
      | some key => rfl
    rw [hkeys, ← List.append_assoc, List.map_cons, ← job.perform_of_faithful hk.faithful,
      ← hanswers]
    exact ⟨rfl, hkept⟩

-- The tokenizers a highlighter has kept do not show: it answers every job as a new one would.
-- Of all that was asked for, what could be built is kept, once for each language and list of
-- themes, with that language and those themes alone; and a job that asks for one of them again, or
-- for one that cannot be built, leaves the highlighter as it is.
theorem kept_tokenizers_invisible (library : ThemeLibrary) (jobs : List (Job σ)) :
    let reached := (fresh.performAll library jobs).2
    (fresh.performAll library jobs).1 = jobs.map (fun job => (job.perform library fresh).1) ∧
    (reached.tokenizers.map (·.1)).Nodup ∧
    (∀ key tokenizer, reached.tokenizers.lookup key = some tokenizer ↔
      (∃ job ∈ jobs, job.key? = some key) ∧
        Tokenizer.build library key.themeIds [key.language.name] = .ok tokenizer) ∧
    (∀ key tokenizer, reached.tokenizers.lookup key = some tokenizer →
      tokenizer.languages = [key.language] ∧
      ∀ id theme, tokenizer.theme id = .ok theme ↔
        id ∈ key.themeIds ∧ library.load id = .ok theme) ∧
    (∀ job ∈ jobs, ∀ other : Job σ,
      Language.ofName? other.request.lang = Language.ofName? job.request.lang →
      other.request.theme.themeIds = job.request.theme.themeIds →
      (other.perform library reached).2 = reached) ∧
    (∀ job : Job σ, job.Fails library → (job.perform library reached).2 = reached) := by
  intro reached
  obtain ⟨hanswers, hkept⟩ := (keeps_fresh library).performAll jobs
  rw [List.nil_append] at hkept
  have hlookup : ∀ key tokenizer, reached.tokenizers.lookup key = some tokenizer ↔
      (∃ job ∈ jobs, job.key? = some key) ∧
        Tokenizer.build library key.themeIds [key.language.name] = .ok tokenizer := by
    intro key tokenizer
    rw [← List.mem_filterMap]
    exact hkept.lookup_iff key tokenizer
  refine ⟨hanswers, hkept.nodup, hlookup, fun key tokenizer hl => ?_,
    fun job hm other hlang hids => ?_, fun job hfails => hkept.perform_snd (Or.inr hfails)⟩
  · obtain ⟨⟨job, -, hkey⟩, hbuilt⟩ := (hlookup key tokenizer).mp hl
    obtain ⟨language, -, rfl⟩ := Option.map_eq_some_iff.mp hkey
    obtain ⟨hlanguages, hthemes⟩ :=
      Tokenizer.contents_of_build job.request.theme.themeIds_ne_nil hbuilt
    exact ⟨hlanguages, fun id theme => Tokenizer.theme_eq_ok_iff.trans (hthemes id theme)⟩
  · refine hkept.perform_snd (Or.inl fun key hkey => List.mem_filterMap.mpr ⟨job, hm, ?_⟩)
    rw [← hkey, Job.key?, Job.key?, hlang, hids]

-- Two names of a language and two selections of one theme share a tokenizer; a theme without a
-- name leaves none.
theorem kept_tokenizers_invisible_rust :
    let nameless : Job Unit := .resolve ⟨"fn", "rust", .single "", .none⟩ .absent ()
    let first : Job Unit := .highlight ⟨"fn", "rust", .single Theme.fallbackId, .none⟩ .absent ()
    let themes := Dict.ofList [("light", Theme.fallbackId), ("dark", Theme.fallbackId)]
    let again : Job Unit := .resolve ⟨"mod", " RS ", .variants themes, .none⟩ .absent ()
    let reached := (fresh.performAll .bare [nameless, first]).2
    (∃ tokenizer, reached.tokenizers.lookup ⟨.rust, [Theme.fallbackId]⟩ = some tokenizer ∧
      tokenizer.languages = [.rust]) ∧
      (again.perform .bare reached).2 = reached ∧
      (nameless.perform .bare reached).2 = reached := by
  intro nameless first themes again reached
  obtain ⟨-, -, hlookup, hcontents, hshared, hfailing⟩ :=
    kept_tokenizers_invisible .bare [nameless, first]
  have hkey : first.key? = some ⟨.rust, [Theme.fallbackId]⟩ := by decide +kernel
  have hbuilt : (Tokenizer.build .bare [Theme.fallbackId] [Language.rust.name]).isOk = true := by
    decide +kernel
  obtain ⟨tokenizer, htokenizer⟩ := exists_of_isOk hbuilt
  have hl := (hlookup _ tokenizer).mpr ⟨⟨first, by simp, hkey⟩, htokenizer⟩
  have hfails : nameless.Fails .bare := by
    intro key hn
    obtain rfl : (⟨.rust, [""]⟩ : TokenizerKey) = key := by
      have hnameless : nameless.key? = some ⟨.rust, [""]⟩ := by decide +kernel
      exact Option.some.inj (hnameless.symm.trans hn)
    exact ⟨.initialization (.theme (.invalidId "")), rfl⟩
  exact ⟨⟨tokenizer, hl, (hcontents _ tokenizer hl).1⟩,
    hshared first (by simp) again (by decide +kernel) (by decide +kernel),
    hfailing nameless hfails⟩

end LocalHighlighter

end SyntaxStream
