import SyntaxStream.Proofs.Session.Mirror

namespace SyntaxStream

-- Whether an operation that gives this answer has started the session.
def Answer.hasStarted : Answer → Bool
  | started (.ok ()) => true
  | processed report => report.outcome.hasStarted
  | _ => false

-- A tokenizer for one language and one theme can be built unless one of the two is missing.
theorem Tokenizer.not_built_iff (library : ThemeLibrary) (id name : String) :
    (∃ reason, Tokenizer.build library [id] [name] = .error reason) ↔
      Language.ofName? name = none ∨ ∃ reason, library.load id = .error reason := by
  constructor
  · rintro ⟨reason, hb⟩
    by_contra hboth
    rw [not_or, ← ne_eq, Option.ne_none_iff_exists', not_exists] at hboth
    obtain ⟨⟨language, hl⟩, hload⟩ := hboth
    cases ht : library.load id with
    | error reason => exact hload reason ht
    | ok theme =>
      rw [build_of_load hl ht] at hb
      cases hb
  · intro hmissing
    cases hb : Tokenizer.build library [id] [name] with
    | error reason => exact ⟨reason, rfl⟩
    | ok tokenizer =>
      obtain ⟨language, theme, hl, ht, -⟩ := exists_of_build hb
      rcases hmissing with hnone | ⟨reason, hreason⟩
      · cases hnone.symm.trans hl
      · cases hreason.symm.trans ht

namespace Session

open ChunkSource

variable {σ ρ : Type} [ChunkSource ρ] {parser : SyntaxParser σ} {options : SessionOptions}
  {session : Session} {origin : Option ThemeLibrary}

-- The themes that there were when an operation started the session for the first time.
def firstThemes : List (ThemeLibrary × Operation ρ) → List (Record ρ) → Option ThemeLibrary
  | (library, _) :: operations, record :: records =>
    if record.answer.hasStarted then some library else firstThemes operations records
  | _, _ => none

-- A session that keeps the tokenizer for the themes it has met first, or none if it has met none.
def KeepsFirst (options : SessionOptions) (origin : Option ThemeLibrary) (session : Session) :
    Prop :=
  session.options = options ∧ session.tokenizer.map .ok =
    origin.map fun library => Tokenizer.build library [options.themeId] [options.languageName]

theorem keepsFirst_new (options : SessionOptions) : (Session.new options).KeepsFirst options none :=
  ⟨rfl, rfl⟩

theorem KeepsFirst.loadTokenizer_eq (h : session.KeepsFirst options origin)
    (library : ThemeLibrary) :
    session.loadTokenizer library =
      Tokenizer.build (origin.getD library) [options.themeId] [options.languageName] := by
  obtain ⟨rfl, hkept⟩ := h
  unfold loadTokenizer
  cases htokenizer : session.tokenizer with
  | none =>
    rw [htokenizer] at hkept
    rw [Option.map_eq_none_iff.mp hkept.symm]
    rfl
  | some tokenizer =>
    rw [htokenizer] at hkept
    obtain ⟨library', rfl, hb⟩ := Option.map_eq_some_iff.mp hkept.symm
    exact hb.symm

-- A start succeeds if a tokenizer is kept or can be built. Nothing changes otherwise.
theorem KeepsFirst.start_cases (h : session.KeepsFirst options origin) (library : ThemeLibrary) :
    (∃ setup,
      Tokenizer.build (origin.getD library) [options.themeId] [options.languageName] =
        .error (.initialization setup) ∧
      session.start library = (.error (.initialization setup), session)) ∨
    ∃ tokenizer language transform,
      Tokenizer.build (origin.getD library) [options.themeId] [options.languageName] =
        .ok tokenizer ∧
      session.start library = (.ok (), opened options tokenizer transform) ∧
      Transform.new tokenizer language options.themeId options.allowRecalls = .ok transform := by
  have hload := h.loadTokenizer_eq library
  obtain ⟨rfl, -⟩ := h
  cases hb : Tokenizer.build (origin.getD library) [session.options.themeId]
      [session.options.languageName] with
  | error reason =>
    obtain ⟨setup, rfl⟩ := Tokenizer.exists_of_not_build hb
    exact Or.inl ⟨setup, rfl, start_of_not_built (hload.trans hb)⟩
  | ok tokenizer =>
    obtain ⟨language, transform, hl, hn⟩ := exists_transform_of_build hb
    exact Or.inr ⟨tokenizer, language, transform, rfl, start_of_built (hload.trans hb) hl hn, hn⟩

-- A start keeps what was kept, or what there is at its time.
theorem keepsFirst_opened {tokenizer : Tokenizer} (library : ThemeLibrary) (transform : Transform)
    (hb : Tokenizer.build (origin.getD library) [options.themeId] [options.languageName] =
      .ok tokenizer) :
    (opened options tokenizer transform).KeepsFirst options (origin.or (some library)) := by
  refine ⟨rfl, ?_⟩
  rw [Option.or_some, Option.map_some, hb]
  rfl

theorem KeepsFirst.of_not_opens (h : session.KeepsFirst options origin) {operation : Operation ρ}
    (ho : operation.opens = false) (parser : SyntaxParser σ) (library : ThemeLibrary) (s : σ) :
    (session.step parser library operation s).1.hasStarted = false ∧
      (session.step parser library operation s).2.1.KeepsFirst options origin := by
  cases operation with
  | start => cases ho
  | process reader => cases ho
  | append chunk =>
    refine ⟨rfl, ?_⟩
    simp only [Session.step, append]
    split <;> exact h
  | feed chunk =>
    refine ⟨rfl, ?_⟩
    simp only [Session.step, feed, append, pushTransform]
    split
    · split <;> exact h
    · exact h
  | push chunk =>
    refine ⟨rfl, ?_⟩
    simp only [Session.step, pushTransform]
    split <;> exact h
  | finish =>
    refine ⟨rfl, ?_⟩
    simp only [Session.step, finish]
    split
    · split <;> exact h
    · exact h
  | stop => exact ⟨rfl, h⟩

theorem hasStarted_outcomeOf (ending : ReadOutcome) : (outcomeOf ending).hasStarted = true := by
  cases ending <;> rfl

-- Only the first operation that starts the session settles what it keeps.
theorem KeepsFirst.step (h : session.KeepsFirst options origin) (parser : SyntaxParser σ)
    (library : ThemeLibrary) (operation : Operation ρ) (s : σ) :
    let next := session.step parser library operation s
    next.2.1.KeepsFirst options
      (origin.or (if next.1.hasStarted then some library else none)) := by
  intro next
  by_cases ho : operation.opens = true
  · cases operation with
    | start =>
      rcases h.start_cases library with ⟨setup, -, hs⟩ | ⟨tokenizer, _, transform, hb, hs, -⟩
      · have hnext : next = (.started (.error (.initialization setup)), session, s) := by
          simp only [next, Session.step, hs]
        rw [hnext]
        simpa [Answer.hasStarted] using h
      · have hnext : next = (.started (.ok ()), opened options tokenizer transform, s) := by
          simp only [next, Session.step, hs]
        rw [hnext]
        exact keepsFirst_opened library transform hb
    | process reader =>
      rcases h.start_cases library with ⟨setup, -, hs⟩ | ⟨tokenizer, _, transform, hb, hs, -⟩
      · have hp := process_of_not_started hs reader
        have hnext : next = (.processed ⟨.failed (.initialization setup), []⟩, session, s) := by
          simp only [next, Session.step, hp]
        rw [hnext]
        simpa [Answer.hasStarted, ProcessOutcome.hasStarted] using h
      · have hp := process_of_started hs rfl reader
        have hstarted : next.1.hasStarted = true := by
          simp only [next, Session.step, hp, Answer.hasStarted, hasStarted_outcomeOf]
        have hlast : next.2.1 =
            ((opened options tokenizer transform).appendAll (readAll reader).chunks).stop := by
          simp only [next, Session.step, hp]
        rw [hstarted, hlast]
        exact keepsFirst_opened library transform hb
    | append chunk => cases ho
    | feed chunk => cases ho
    | push chunk => cases ho
    | finish => cases ho
    | stop => cases ho
  · obtain ⟨hnot, hkept⟩ := h.of_not_opens (by simpa using ho) parser library s
    have hnext : next.1.hasStarted = false := hnot
    rw [hnext]
    simpa using hkept

omit [ChunkSource ρ] in
theorem or_firstThemes_cons (origin : Option ThemeLibrary) (library : ThemeLibrary)
    (operation : Operation ρ) (operations : List (ThemeLibrary × Operation ρ)) (record : Record ρ)
    (records : List (Record ρ)) :
    origin.or (firstThemes ((library, operation) :: operations) (record :: records)) =
      (origin.or (if record.answer.hasStarted then some library else none)).or
        (firstThemes operations records) := by
  rw [firstThemes]
  by_cases hs : record.answer.hasStarted = true
  · simp [hs]
  · simp [hs]

theorem KeepsFirst.run {operations : List (ThemeLibrary × Operation ρ)}
    (h : session.KeepsFirst options origin) (parser : SyntaxParser σ) (s : σ) :
    (session.run parser operations s).2.1.KeepsFirst options
      (origin.or (firstThemes operations (session.run parser operations s).1)) := by
  induction operations generalizing session origin s with
  | nil => simpa [Session.run, firstThemes] using h
  | cons entry rest ih =>
    obtain ⟨library, operation⟩ := entry
    have hlater := ih (h.step parser library operation s)
      (session.step parser library operation s).2.2
    rw [run_cons]
    simp only
    rw [or_firstThemes_cons]
    exact hlater

-- Once something is kept it can be used.
theorem KeepsFirst.eq_none_of_not_built (h : session.KeepsFirst options origin)
    {library : ThemeLibrary} {reason : HighlightError}
    (hb : Tokenizer.build (origin.getD library) [options.themeId] [options.languageName] =
      .error reason) : origin = none := by
  cases origin with
  | none => rfl
  | some origin =>
    obtain ⟨tokenizer, -, hkept⟩ := Option.map_eq_some_iff.mp h.2
    cases hkept.trans hb

theorem theme_of_built {library : ThemeLibrary} {tokenizer : Tokenizer} {language : Language}
    {transform : Transform}
    (hb : Tokenizer.build library [options.themeId] [options.languageName] = .ok tokenizer)
    (hn : Transform.new tokenizer language options.themeId options.allowRecalls = .ok transform) :
    library.load options.themeId = .ok transform.theme := by
  obtain ⟨_, theme, -, hload, rfl⟩ := Tokenizer.exists_of_build hb
  have htheme := Transform.theme_of_new hn
  simp only [Tokenizer.theme, List.lookup_cons_self] at htheme
  obtain rfl := Except.ok.inj htheme
  exact hload

-- A start fails only as long as none has succeeded, and only for want of the language or the theme;
-- it leaves the session as it was, so that the next one succeeds if both are there then. Behind the
-- first success every start succeeds, with the theme as it was at that time.
theorem start_fails_only_at_first (options : SessionOptions) (parser : SyntaxParser σ)
    (earlier : List (ThemeLibrary × Operation ρ)) (s : σ) (library : ThemeLibrary) :
    let reached := (Session.new options).run parser earlier s
    let session := reached.2.1
    let first := firstThemes earlier reached.1
    ((∃ reason, (session.start library).1 = .error reason) ↔
      first = none ∧ (Language.ofName? options.languageName = none ∨
        ∃ reason, library.load options.themeId = .error reason)) ∧
    (∀ reason, (session.start library).1 = .error reason →
      (session.start library).2 = session ∧
      ∀ later language theme, Language.ofName? options.languageName = some language →
        later.load options.themeId = .ok theme →
        ((session.start library).2.start later).1 = .ok ()) ∧
    (first ≠ none → (session.start library).1 = .ok ()) ∧
    ((session.start library).1 = .ok () →
      ∃ transform, (session.start library).2.transform = some transform ∧
        (first.getD library).load options.themeId = .ok transform.theme) := by
  intro reached session first
  have hkeeps : session.KeepsFirst options first := by
    simpa only [Option.none_or] using (keepsFirst_new options).run parser s
  clear_value session first
  rcases hkeeps.start_cases library with
    ⟨setup, hb, hs⟩ | ⟨tokenizer, language, transform, hb, hs, hn⟩
  · obtain rfl := hkeeps.eq_none_of_not_built hb
    have hmissing := (Tokenizer.not_built_iff library _ _).mp ⟨_, hb⟩
    rw [hs]
    refine ⟨⟨fun _ => ⟨rfl, hmissing⟩, fun _ => ⟨_, rfl⟩⟩, fun reason _ => ⟨rfl, ?_⟩,
      fun hne => absurd rfl hne, fun hok => by cases hok⟩
    intro later language theme hl ht
    have hbuilt := Tokenizer.build_of_load hl ht
    rcases hkeeps.start_cases later with ⟨_, hb', -⟩ | ⟨_, _, _, -, hs', -⟩
    · cases hb'.symm.trans hbuilt
    · rw [hs']
  · rw [hs]
    refine ⟨⟨fun herror => ?_, fun hfirst => ?_⟩, fun reason herror => ?_, fun _ => rfl,
      fun _ => ?_⟩
    · obtain ⟨reason, herror⟩ := herror
      cases herror
    · obtain ⟨rfl, hmissing⟩ := hfirst
      obtain ⟨reason, hnot⟩ := (Tokenizer.not_built_iff library _ _).mpr hmissing
      cases hnot.symm.trans hb
    · cases herror
    · exact ⟨transform, rfl, theme_of_built hb hn⟩

-- A folder hides the theme at first and again at the end. The start between them is the first to
-- succeed, and what it has kept serves the last one.
theorem start_fails_only_at_first_hidden :
    let hidden : ThemeLibrary := ⟨[("github-dark.yaml", .folder)]⟩
    let earlier : List (ThemeLibrary × Operation ChunkReader) :=
      [(hidden, .start), (.bare, .start), (hidden, .stop)]
    let reached := (Session.new .defaults).run SyntaxParser.absent earlier ()
    (hidden.load SessionOptions.defaults.themeId).isOk = false ∧
      firstThemes earlier reached.1 = some .bare ∧
      (reached.2.1.start hidden).1 = .ok () := by
  intro hidden earlier reached
  have hfirst : firstThemes earlier reached.1 = some .bare := by decide +kernel
  have hlater := start_fails_only_at_first .defaults SyntaxParser.absent earlier () hidden
  refine ⟨by decide +kernel, hfirst, hlater.2.2.1 ?_⟩
  exact fun hnone => Option.some_ne_none _ (hfirst.symm.trans hnone)

end Session

end SyntaxStream
