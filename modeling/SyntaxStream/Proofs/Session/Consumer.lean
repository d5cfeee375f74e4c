import SyntaxStream.Proofs.Session.Mirror
import SyntaxStream.Proofs.Transform.Shown

namespace SyntaxStream

open Happening Text

variable {σ ρ : Type}

-- A consumer of a session empties the buffer at every start, and applies all that it is given.
def TokenBuffer.consume (buffer : TokenBuffer) (record : Record ρ) : TokenBuffer :=
  match record.answer with
  | .started (.ok ()) => .empty
  | answer => buffer.applyAll answer.emitted

-- Whether an operation starts a session, feeds it, or ends its input or the session.
def Operation.feeds : Operation ρ → Bool
  | .start | .feed _ | .finish | .stop => true
  | _ => false

namespace Happening

variable {history : List Happening}

-- A history in which every chunk is kept and at once given to the transform.
inductive Fed : List Happening → Prop
  | nil : Fed []
  | chunk (text : String) {rest : List Happening} : Fed rest → Fed (kept text :: given text :: rest)
  | other {next : Happening} {rest : List Happening} :
      next.kept? = none → next.given? = none → Fed rest → Fed (next :: rest)

-- The chunks that were kept although the input of the last transform had ended.
def late (history : List Happening) : String :=
  String.join (((recent history).dropWhile (· ≠ finished)).filterMap kept?)

theorem Fed.append {xs ys : List Happening} (hx : Fed xs) (hy : Fed ys) : Fed (xs ++ ys) := by
  induction hx with
  | nil => exact hy
  | chunk text _ ih => exact .chunk text ih
  | other hkept hgiven _ ih => exact .other hkept hgiven ih

theorem Fed.sinceStart (h : Fed history) {since : List Happening}
    (hs : Happening.sinceStart history = some since) : Fed since := by
  induction h generalizing since with
  | nil => cases hs
  | chunk text _ ih => exact ih hs
  | @other next rest hkept hgiven hrest ih =>
    cases next with
    | started =>
      cases hlast : Happening.sinceStart rest with
      | none =>
        rw [Happening.sinceStart, hlast] at hs
        exact Option.some.inj hs ▸ hrest
      | some last =>
        rw [Happening.sinceStart, hlast] at hs
        exact Option.some.inj hs ▸ ih hlast
    | kept text => cases hkept
    | given text => cases hgiven
    | _ => exact ih hs

theorem Fed.recent (h : Fed history) : Fed (recent history) := by
  cases hs : Happening.sinceStart history with
  | none =>
    rw [Happening.recent, hs]
    exact .nil
  | some since =>
    rw [Happening.recent, hs]
    exact h.sinceStart hs

-- Until the input ends, the transform is given what is kept.
theorem Fed.kept_eq_given (h : Fed history) :
    (before finished history).filterMap kept? = (before finished history).filterMap given? := by
  induction h with
  | nil => rfl
  | chunk text _ ih => simpa [before, List.filterMap_cons, kept?, given?] using ih
  | @other next rest hkept hgiven _ ih =>
    by_cases hn : next = finished
    · simp [before, hn]
    · simpa [before, hn, hkept, hgiven] using ih

theorem content_eq_source_append_late (h : Fed history) (hs : Streaming history) :
    content history = source history ++ late history := by
  have hopen : stopped ∉ recent history := by
    obtain ⟨since, hsince, hopen⟩ := hs
    rwa [recent, hsince]
  have hsplit : recent history =
      before finished (recent history) ++ (recent history).dropWhile (· ≠ finished) :=
    List.takeWhile_append_dropWhile.symm
  rw [content, before_of_notMem hopen, hsplit, List.filterMap_append, String.join_append,
    h.recent.kept_eq_given]
  rfl

theorem late_of_not_finished (hf : ¬ Finished history) : late history = "" := by
  have hall : (recent history).dropWhile (· ≠ finished) = [] := by
    rw [List.dropWhile_eq_nil_iff]
    intro happening hm
    rw [decide_eq_true_eq]
    rintro rfl
    exact hf hm
  rw [late, hall]
  rfl

end Happening

namespace Session

variable [ChunkSource ρ] {parser : SyntaxParser σ} {library : ThemeLibrary}
  {options : SessionOptions} {session : Session} {buffer : TokenBuffer}
  {seen : ThemeLibrary → Prop} {t : Transform} {s : σ}

-- A session whose transform, if there is one, has shown the consumer what it holds.
def Shows (session : Session) (buffer : TokenBuffer) : Prop :=
  ∀ t, session.transform = some t →
    t.allowRecalls = session.options.allowRecalls ∧ t.Shows buffer.tokens

theorem Idle.shows (h : session.Idle) (buffer : TokenBuffer) : session.Shows buffer :=
  fun _ ht => absurd ht h.transform_ne

theorem shows_opened {tokenizer : Tokenizer} {language : Language}
    (hn : Transform.new tokenizer language options.themeId options.allowRecalls = .ok t) :
    (opened options tokenizer t).Shows .empty := by
  rintro _ ⟨⟩
  have hshows := Transform.shows_of_new hn
  obtain ⟨theme, -, rfl⟩ := Transform.exists_of_new hn
  exact ⟨rfl, hshows⟩

theorem Shows.append (h : session.Shows buffer) (chunk : String) :
    (session.append chunk).Shows buffer := by
  unfold Session.append
  split <;> exact h

-- A call of the transform shows the consumer what it has changed.
theorem Shows.call (h : session.Shows buffer) (ht : session.transform = some t)
    (parser : SyntaxParser σ) (call : Call) (s : σ) :
    { session with transform := some (t.step parser call s).2.1 }.Shows
      (buffer.applyAll (t.step parser call s).1) := by
  obtain ⟨hmode, hshows⟩ := h t ht
  rintro _ ⟨⟩
  exact ⟨(Transform.allowRecalls_step parser t call s).trans hmode, hshows.step parser call s⟩

theorem Shows.pushTransform (h : session.Shows buffer) (parser : SyntaxParser σ) (chunk : String)
    (s : σ) :
    (session.pushTransform parser chunk s).2.1.Shows
      (buffer.applyAll ((session.pushTransform parser chunk s).1.getD [])) := by
  unfold Session.pushTransform
  cases ht : session.transform with
  | none => exact fun t hsome => absurd (ht.symm.trans hsome) nofun
  | some t => exact h.call ht parser (.push chunk) s

theorem Shows.finish (h : session.Shows buffer) (hsound : Sound options seen session) :
    (session.finish parser s).2.1.Shows (buffer.applyAll (session.finish parser s).1) := by
  rcases hsound.idle_or_streams with hi | ⟨t, ht⟩
  · rw [hi.finish]
    exact h
  · rw [ht.finish]
    exact h.call ht.transform parser .flush s

-- After an operation the consumer who takes its answer into account holds what is shown.
theorem Shows.step (h : session.Shows buffer) (hsound : Sound options seen session)
    (hl : seen library) (parser : SyntaxParser σ) (operation : Operation ρ) (s : σ) :
    let next := session.step parser library operation s
    next.2.1.Shows (buffer.consume ⟨operation, next.1, next.2.1⟩) := by
  cases operation with
  | start =>
    simp only [Session.step]
    rcases hsound.start_cases library hl with ⟨setup, hs⟩ | ⟨_, _, _, hs, -, hn⟩
    · rw [hs]
      exact h
    · rw [hs]
      exact shows_opened hn
  | append chunk => exact h.append chunk
  | feed chunk =>
    simp only [Session.step, hsound.feed_eq]
    exact (h.append chunk).pushTransform parser chunk s
  | push chunk => exact h.pushTransform parser chunk s
  | finish => exact h.finish hsound
  | stop => exact session.idle_stop.shows _
  | process reader =>
    simp only [Session.step]
    rcases hsound.process_cases library hl reader with ⟨setup, -, hp⟩ | ⟨_, _, _, -, hp, -, -⟩
    · rw [hp]
      exact h
    · rw [hp]
      exact (idle_stop _).shows _

theorem Shows.run (h : session.Shows buffer) (hsound : Sound options seen session)
    {operations : List (ThemeLibrary × Operation ρ)} (hl : ∀ entry ∈ operations, seen entry.1)
    (parser : SyntaxParser σ) (s : σ) :
    (session.run parser operations s).2.1.Shows
      ((session.run parser operations s).1.foldl TokenBuffer.consume buffer) := by
  induction operations generalizing session buffer s with
  | nil => exact h
  | cons entry rest ih =>
    obtain ⟨library, operation⟩ := entry
    obtain ⟨hfirst, hrest⟩ := List.forall_mem_cons.mp hl
    exact ih (h.step hsound hfirst parser operation s) (hsound.step hfirst operation s) hrest
      (session.step parser library operation s).2.2

theorem fed_happenings {operation : Operation ρ} (h : operation.feeds = true) (answer : Answer)
    (session : Session) : Fed (Record.mk operation answer session).happenings := by
  cases operation with
  | start =>
    unfold Record.happenings
    split
    any_goals contradiction
    · exact .other rfl rfl .nil
    · exact .nil
  | feed chunk => exact .chunk chunk .nil
  | finish => exact .other rfl rfl .nil
  | stop => exact .other rfl rfl .nil
  | _ => cases h

theorem fed_run (session : Session) {operations : List (ThemeLibrary × Operation ρ)}
    (h : ∀ entry ∈ operations, entry.2.feeds = true) (parser : SyntaxParser σ) (s : σ) :
    Fed ((session.run parser operations s).1.flatMap Record.happenings) := by
  induction operations generalizing session s with
  | nil => exact .nil
  | cons entry rest ih =>
    obtain ⟨hfirst, hrest⟩ := List.forall_mem_cons.mp h
    rw [run_cons, List.flatMap_cons]
    exact (fed_happenings hfirst _ _).append (ih _ hrest _)

-- While a session streams, the consumer has its content without what was fed after the end of the
-- input. Without recalls the last line is missing too, as long as the input can go on.
theorem view_of_content (options : SessionOptions) (parser : SyntaxParser σ)
    {operations : List (ThemeLibrary × Operation ρ)}
    (hfeeds : ∀ entry ∈ operations, entry.2.feeds = true) (s : σ) :
    let reached := (Session.new options).run parser operations s
    let session := reached.2.1
    let history := reached.1.flatMap Record.happenings
    let view := reached.1.foldl TokenBuffer.consume .empty
    session.streaming = true →
    (Finished history →
      view.text = Happening.source history ∧ session.content = view.text ++ late history) ∧
    (¬ Finished history →
      view.text = if options.allowRecalls then session.content else completeLines session.content) := by
  intro reached session history view hs
  have hsound : Sound options (fun _ => True) session :=
    (sound_new options _).run (fun _ _ => trivial) s
  have hmirrors : session.Mirrors history := by
    simpa only [List.nil_append] using
      (mirrors_new options).run (sound_new options fun _ => True) (fun _ _ => trivial) parser s
  have hshows : session.Shows view := ((idle_new options).shows .empty).run
    (sound_new options fun _ => True) (fun _ _ => trivial) parser s
  have hsplit : session.content = Happening.source history ++ late history :=
    hmirrors.content.trans
      (content_eq_source_append_late (fed_run _ hfeeds parser s) (hmirrors.streaming.mp hs))
  obtain ⟨t, ht⟩ : ∃ t, session.Streams t := by
    rcases hsound.idle_or_streams with hi | ht
    · exact absurd (hi.streaming.symm.trans hs) Bool.false_ne_true
    · exact ht
  obtain ⟨hmode, hview⟩ := hshows t ht.transform
  obtain ⟨hsource, hend⟩ := hmirrors.source t ht.transform
  have htext : view.text = if t.allowRecalls || t.finished then t.source
      else completeLines t.source := hview.text
  rw [hsource, hmode, hsound.options_eq] at htext
  constructor
  · intro hf
    rw [hend.mpr hf, Bool.or_true, if_pos rfl] at htext
    exact ⟨htext, by rw [htext, hsplit]⟩
  · intro hf
    have hopen : t.finished = false := by simpa using mt hend.mp hf
    rw [hsplit, late_of_not_finished hf, String.append_empty, htext, hopen, Bool.or_false]

-- The first session is left unfinished. The second one is fed after its end.
theorem view_of_content_rust :
    let options : SessionOptions := ⟨some "rust", none, false⟩
    let operations : List (ThemeLibrary × Operation ChunkReader) :=
      [(.bare, .start), (.bare, .feed "x"), (.bare, .start), (.bare, .feed "fn"),
        (.bare, .finish), (.bare, .feed "a")]
    let answers : Recording := ⟨[.parsed [], .failed], [], false⟩
    let reached := (Session.new options).run Recording.player operations answers
    let view := reached.1.foldl TokenBuffer.consume .empty
    (∀ entry ∈ operations, entry.2.feeds = true) ∧ reached.2.1.streaming = true ∧
      view.text = "fn" ∧ reached.2.1.content = view.text ++ "a" := by
  intro options operations answers reached view
  have hfeeds : ∀ entry ∈ operations, entry.2.feeds = true := by decide
  -- evaluated at once, as each evaluation loads the theme again
  have hall : reached.2.1.streaming = true ∧
      reached.1.flatMap Record.happenings = [.started, .kept "x", .given "x", .started,
        .kept "fn", .given "fn", .finished, .kept "a", .given "a"] := by decide +kernel
  have hview := view_of_content options Recording.player hfeeds answers
  simp only [reached, view] at hview hall ⊢
  generalize (Session.new options).run Recording.player operations answers = reached at *
  obtain ⟨hs, hhistory⟩ := hall
  rw [hhistory] at hview
  obtain ⟨htext, hcontent⟩ := (hview hs).1 (by simp [Finished, recent, sinceStart])
  exact ⟨hfeeds, hs, htext, hcontent⟩

-- What is fed after the end of the input adds to the content, but the consumer never has it.
theorem text_ne_content_after_finish :
    let options : SessionOptions := ⟨none, none, true⟩
    let operations : List (ThemeLibrary × Operation ChunkReader) :=
      [(.bare, .start), (.bare, .feed "a"), (.bare, .finish), (.bare, .feed "b")]
    let reached := (Session.new options).run SyntaxParser.absent operations ()
    let view := reached.1.foldl TokenBuffer.consume .empty
    (∀ entry ∈ operations, entry.2.feeds = true) ∧ reached.2.1.streaming = true ∧
      reached.2.1.content = "ab" ∧ view.text = "a" := by
  decide +kernel

end Session

end SyntaxStream
