import SyntaxStream.Proofs.Transform.Run
import SyntaxStream.Session

namespace SyntaxStream

-- A tokenizer for one language and one theme holds just these two.
theorem Tokenizer.exists_of_build {library : ThemeLibrary} {id name : String}
    {tokenizer : Tokenizer} (h : Tokenizer.build library [id] [name] = .ok tokenizer) :
    ∃ language theme, Language.ofName? name = some language ∧ library.load id = .ok theme ∧
      tokenizer = ⟨[language], [(id, theme)]⟩ := by
  cases hl : Language.ofName? name with
  | none => simp [build, addLanguage, hl, bind, Except.bind] at h
  | some language =>
    cases ht : library.load id with
    | error reason =>
      simp [build, addLanguage, addTheme, hl, ht, bind, Except.bind, pure, Except.pure] at h
    | ok theme =>
      simp [build, addLanguage, addTheme, hl, ht, bind, Except.bind, pure, Except.pure] at h
      exact ⟨language, theme, rfl, rfl, h.symm⟩

theorem Tokenizer.build_of_load {library : ThemeLibrary} {id name : String} {language : Language}
    {theme : Theme} (hl : Language.ofName? name = some language)
    (ht : library.load id = .ok theme) :
    Tokenizer.build library [id] [name] = .ok ⟨[language], [(id, theme)]⟩ := by
  simp [build, addLanguage, addTheme, hl, ht, bind, Except.bind, pure, Except.pure]

theorem Tokenizer.exists_of_not_build {library : ThemeLibrary} {id name : String}
    {reason : HighlightError} (h : Tokenizer.build library [id] [name] = .error reason) :
    ∃ setup, reason = .initialization setup := by
  cases hl : Language.ofName? name with
  | none =>
    simp [build, addLanguage, hl, bind, Except.bind] at h
    exact ⟨_, h.symm⟩
  | some language =>
    cases ht : library.load id with
    | error reason =>
      simp [build, addLanguage, addTheme, hl, ht, bind, Except.bind, pure, Except.pure] at h
      exact ⟨_, h.symm⟩
    | ok theme =>
      simp [build, addLanguage, addTheme, hl, ht, bind, Except.bind, pure, Except.pure] at h

namespace Session

variable {session : Session} {library : ThemeLibrary} {options : SessionOptions}
  {seen : ThemeLibrary → Prop} {tokenizer : Tokenizer}

-- A session that has kept no tokenizer but one built for its options from themes it has seen.
def Faithful (seen : ThemeLibrary → Prop) (session : Session) : Prop :=
  ∀ tokenizer, session.tokenizer = some tokenizer → ∃ library, seen library ∧
    Tokenizer.build library [session.options.themeId] [session.options.languageName] = .ok tokenizer

theorem faithful_new (seen : ThemeLibrary → Prop) (options : SessionOptions) :
    (Session.new options).Faithful seen := by
  intro tokenizer h
  cases h

-- A session as a start leaves it.
def opened (options : SessionOptions) (tokenizer : Tokenizer) (transform : Transform) : Session :=
  ⟨options, "", true, some tokenizer, some transform⟩

theorem Faithful.exists_build (hf : session.Faithful seen) (hl : seen library)
    (h : session.loadTokenizer library = .ok tokenizer) :
    ∃ origin, seen origin ∧
      Tokenizer.build origin [session.options.themeId] [session.options.languageName] =
        .ok tokenizer := by
  unfold loadTokenizer at h
  split at h
  · rename_i kept hkept
    obtain rfl := Except.ok.inj h
    exact hf kept hkept
  · exact ⟨library, hl, h⟩

-- As long as the themes stay the same, a kept tokenizer is the one that would be built again.
theorem Faithful.loadTokenizer_eq (h : session.Faithful (· = library)) :
    session.loadTokenizer library =
      Tokenizer.build library [session.options.themeId] [session.options.languageName] := by
  unfold loadTokenizer
  split
  · obtain ⟨_, rfl, hb⟩ := h _ ‹_›
    exact hb.symm
  · rfl

-- A tokenizer that could be built is one that a transform can be bound to.
theorem exists_transform_of_build
    (h : Tokenizer.build library [options.themeId] [options.languageName] = .ok tokenizer) :
    ∃ language transform, Language.ofName? options.languageName = some language ∧
      Transform.new tokenizer language options.themeId options.allowRecalls = .ok transform := by
  obtain ⟨language, theme, hl, -, rfl⟩ := Tokenizer.exists_of_build h
  have hn : ∃ transform, Transform.new ⟨[language], [(options.themeId, theme)]⟩ language
      options.themeId options.allowRecalls = .ok transform := by
    simp [Transform.new, Tokenizer.theme, Tokenizer.parses, Tokenizer.supports, bind, Except.bind,
      pure, Except.pure]
  obtain ⟨transform, hn⟩ := hn
  exact ⟨language, transform, hl, hn⟩

theorem exists_of_not_loaded {reason : HighlightError}
    (h : session.loadTokenizer library = .error reason) :
    ∃ setup, reason = .initialization setup := by
  unfold loadTokenizer at h
  split at h
  · cases h
  · exact Tokenizer.exists_of_not_build h

theorem start_of_not_built {reason : HighlightError}
    (h : session.loadTokenizer library = .error reason) :
    session.start library = (.error reason, session) := by
  rw [start, h]

theorem start_of_built {language : Language} {transform : Transform}
    (h : session.loadTokenizer library = .ok tokenizer)
    (hl : Language.ofName? session.options.languageName = some language)
    (hn : Transform.new tokenizer language session.options.themeId session.options.allowRecalls =
      .ok transform) :
    session.start library = (.ok (), opened session.options tokenizer transform) := by
  simp only [start, h, hl, hn, opened]

-- A start that fails leaves the session as it was. One that succeeds replaces all of it.
theorem Faithful.start_cases (hf : session.Faithful seen) (hl : seen library) :
    (∃ setup, session.start library = (.error (.initialization setup), session)) ∨
    ∃ tokenizer language transform,
      session.start library = (.ok (), opened session.options tokenizer transform) ∧
      (opened session.options tokenizer transform).Faithful seen ∧
      Transform.new tokenizer language session.options.themeId session.options.allowRecalls =
        .ok transform := by
  cases h : session.loadTokenizer library with
  | error reason =>
    obtain ⟨setup, rfl⟩ := exists_of_not_loaded h
    exact Or.inl ⟨setup, start_of_not_built h⟩
  | ok tokenizer =>
    obtain ⟨origin, ho, hb⟩ := hf.exists_build hl h
    obtain ⟨language, transform, hname, hn⟩ := exists_transform_of_build hb
    refine Or.inr ⟨tokenizer, language, transform, start_of_built h hname hn, ?_, hn⟩
    rintro _ ⟨⟩
    exact ⟨origin, ho, hb⟩

-- What a session has kept makes no difference to a start, as long as the themes stay the same.
theorem Faithful.start_eq_start_new (hf : session.Faithful (· = library)) :
    (session.start library).1 = ((Session.new session.options).start library).1 ∧
      ((session.start library).1 = .ok () →
        session.start library = (Session.new session.options).start library) := by
  have hload := hf.loadTokenizer_eq
  have hfresh := (faithful_new (· = library) session.options).loadTokenizer_eq
  cases hb : Tokenizer.build library [session.options.themeId] [session.options.languageName] with
  | error reason =>
    rw [start_of_not_built (hload.trans hb), start_of_not_built (hfresh.trans hb)]
    exact ⟨rfl, fun hok => by cases hok⟩
  | ok tokenizer =>
    obtain ⟨language, transform, hname, hn⟩ := exists_transform_of_build hb
    have hs : session.start library = (Session.new session.options).start library := by
      rw [start_of_built (hload.trans hb) hname hn, start_of_built (hfresh.trans hb) hname hn]
      rfl
    exact ⟨congrArg Prod.fst hs, fun _ => hs⟩

end Session

end SyntaxStream
