import SyntaxStream.Proofs.Session.History

namespace SyntaxStream

open ChunkSource Happening

variable {σ ρ : Type} [ChunkSource ρ]

namespace Session

-- Whether the session could be started to process a reader.
def ProcessOutcome.hasStarted : ProcessOutcome → Bool
  | .failed (.source _) => true
  | .failed _ => false
  | _ => true

end Session

-- What an operation makes happen, told from what was done and answered. The session itself is not
-- looked at.
def Record.happenings (record : Record ρ) : List Happening :=
  match record.operation, record.answer with
  | .start, .started (.ok ()) => [.started]
  | .append chunk, _ => [.kept chunk]
  | .feed chunk, _ => [.kept chunk, .given chunk]
  | .push chunk, _ => [.given chunk]
  | .finish, _ => [.finished]
  | .stop, _ => [.stopped]
  | .process reader, .processed report =>
    if report.outcome.hasStarted then
      .started :: (readAll reader).chunks.map .kept ++ [.stopped]
    else
      []
  | _, _ => []

namespace Session

variable {parser : SyntaxParser σ} {library : ThemeLibrary} {options : SessionOptions}
  {session : Session} {t t' : Transform} {seen : ThemeLibrary → Prop} {history : List Happening}
  {next : Happening} {chunk : String} {s : σ}

-- A session that is as its history tells.
structure Mirrors (session : Session) (history : List Happening) : Prop where
  streaming : session.streaming = true ↔ Streaming history
  content : session.content = Happening.content history
  source : ∀ t, session.transform = some t →
    t.source = Happening.source history ∧ (t.finished = true ↔ Finished history)

theorem mirrors_new (options : SessionOptions) : (Session.new options).Mirrors [] := by
  refine ⟨⟨fun hs => ?_, fun hs => ?_⟩, rfl, fun t ht => absurd ht (idle_new options).transform_ne⟩
  · cases hs
  · obtain ⟨since, hsince, -⟩ := hs
    cases hsince

theorem Mirrors.of_idle (h : session.Mirrors history) (hi : session.Idle) (hn : next ≠ started) :
    session.Mirrors (history ++ [next]) := by
  have hnot : ¬ Streaming history := by
    rw [← h.streaming, hi.streaming]
    exact Bool.false_ne_true
  refine ⟨?_, ?_, fun t ht => ?_⟩
  · rw [streaming_concat hn, h.streaming]
    exact ⟨fun hs => absurd hs hnot, And.left⟩
  · rw [content_concat_of_not_streaming hn hnot, h.content]
  · exact absurd ht hi.transform_ne

-- While a session streams, what happens adds to its content, to its transform or to both.
theorem Mirrors.of_streams (h : session.Mirrors history) (ht : session.Streams t)
    (next : Happening) (t' : Transform) (hn : next ≠ started) (hopen : next ≠ stopped)
    (hsource : t'.source = if t.finished then t.source else t.source ++ next.given?.getD "")
    (hfinished : t'.finished = true ↔ t.finished = true ∨ next = finished) :
    { session with
      content := session.content ++ next.kept?.getD ""
      transform := some t' }.Mirrors (history ++ [next]) := by
  have hs : Streaming history := h.streaming.mp ht.streaming
  obtain ⟨hold, hend⟩ := h.source t ht.transform
  refine ⟨?_, ?_, ?_⟩
  · rw [streaming_concat hn]
    exact ⟨fun _ => ⟨hs, hopen⟩, fun _ => ht.streaming⟩
  · rw [content_concat hn hs, ← h.content]
  · rintro _ ⟨⟩
    rw [hsource]
    refine ⟨?_, by rw [hfinished, finished_concat hn hs, hend]⟩
    by_cases hf : Finished history
    · rw [source_concat_of_finished hn hs hf, if_pos (hend.mpr hf), hold]
    · rw [source_concat hn hs hf, if_neg (mt hend.mp hf), hold]

theorem Mirrors.append (h : session.Mirrors history) (hsound : Sound options seen session)
    (chunk : String) : (session.append chunk).Mirrors (history ++ [.kept chunk]) := by
  rcases hsound.idle_or_streams with hi | ⟨t, ht⟩
  · rw [hi.append]
    exact h.of_idle hi (by simp)
  · have hnext := h.of_streams ht (.kept chunk) t (by simp) (by simp)
      (by simp [given?]) (by simp)
    rw [ht.append]
    simp only [kept?, Option.getD_some, ← ht.transform] at hnext
    exact hnext

theorem Mirrors.pushTransform (h : session.Mirrors history) (hsound : Sound options seen session)
    (parser : SyntaxParser σ) (chunk : String) (s : σ) :
    (session.pushTransform parser chunk s).2.1.Mirrors (history ++ [.given chunk]) := by
  rcases hsound.idle_or_streams with hi | ⟨t, ht⟩
  · rw [hi.pushTransform]
    exact h.of_idle hi (by simp)
  · obtain ⟨_, _, _, he⟩ := Transform.exists_push_state parser t chunk s
    have hnext := h.of_streams ht (.given chunk) (t.push parser chunk s).2.1
      (by simp) (by simp) (by rw [he]; rfl) (by rw [he]; simp)
    rw [ht.pushTransform]
    simpa only [kept?, Option.getD_none, String.append_empty] using hnext

theorem Mirrors.finish (h : session.Mirrors history) (hsound : Sound options seen session) :
    (session.finish parser s).2.1.Mirrors (history ++ [.finished]) := by
  rcases hsound.idle_or_streams with hi | ⟨t, ht⟩
  · rw [hi.finish]
    exact h.of_idle hi (by simp)
  · obtain ⟨_, _, he⟩ := Transform.exists_flush_state parser t s
    have hnext := h.of_streams ht .finished (t.flush parser s).2.1
      (by simp) (by simp) (by rw [he]; simp [given?]) (by rw [he]; simp)
    rw [ht.finish]
    simpa only [kept?, Option.getD_none, String.append_empty] using hnext

theorem Mirrors.stop (h : session.Mirrors history) :
    session.stop.Mirrors (history ++ [.stopped]) := by
  refine ⟨⟨fun hs => ?_, fun hs => ?_⟩, ?_,
    fun t ht => absurd ht session.idle_stop.transform_ne⟩
  · cases hs
  · exact absurd rfl ((streaming_concat (by simp)).mp hs).2
  · rw [Session.stop, h.content]
    by_cases hs : Streaming history
    · rw [content_concat (by simp) hs]
      exact String.append_empty.symm
    · rw [content_concat_of_not_streaming (by simp) hs]

theorem mirrors_opened {tokenizer : Tokenizer} {language : Language}
    (hn : Transform.new tokenizer language options.themeId options.allowRecalls = .ok t)
    (history : List Happening) :
    (opened options tokenizer t).Mirrors (history ++ [.started]) := by
  obtain ⟨theme, -, rfl⟩ := Transform.exists_of_new hn
  refine ⟨⟨fun _ => streaming_started history, fun _ => rfl⟩, ?_, ?_⟩
  · rw [Happening.content, recent_started]
    rfl
  · rintro _ ⟨⟩
    rw [Happening.source, Finished, recent_started]
    simp [before]

theorem Mirrors.appendAll (h : session.Mirrors history) (hsound : Sound options seen session)
    (hs : session.streaming = true) (chunks : List String) :
    (session.appendAll chunks).Mirrors (history ++ chunks.map .kept) := by
  induction chunks generalizing session history with
  | nil => simpa using h
  | cons chunk chunks ih =>
    have hnext := ih (h.append hsound chunk) (hsound.append chunk)
      ((streaming_append session chunk).trans hs)
    rwa [appendAll_cons session chunk chunks hs, List.map_cons, List.append_cons]

-- After an operation the session is as its history tells, which the operation has made longer.
theorem Mirrors.step (h : session.Mirrors history) (hsound : Sound options seen session)
    (hl : seen library) (parser : SyntaxParser σ) (operation : Operation ρ) (s : σ) :
    let next := session.step parser library operation s
    next.2.1.Mirrors (history ++ (Record.mk operation next.1 next.2.1).happenings) := by
  cases operation with
  | start =>
    simp only [Session.step]
    rcases hsound.start_cases library hl with ⟨setup, hs⟩ | ⟨_, _, _, hs, -, hn⟩
    · rw [hs]
      simpa only [Record.happenings, List.append_nil] using h
    · rw [hs]
      exact mirrors_opened hn history
  | append chunk => exact h.append hsound chunk
  | feed chunk =>
    have hnext := (h.append hsound chunk).pushTransform (hsound.append chunk) parser chunk s
    simpa only [Session.step, hsound.feed_eq, Record.happenings, List.append_assoc,
      List.singleton_append] using hnext
  | push chunk => exact h.pushTransform hsound parser chunk s
  | finish => exact h.finish hsound
  | stop => exact h.stop
  | process reader =>
    simp only [Session.step]
    rcases hsound.process_cases library hl reader with
      ⟨setup, -, hp⟩ | ⟨_, _, _, -, hp, hopened, hn⟩
    · rw [hp]
      simpa only [Record.happenings, ProcessOutcome.hasStarted, Bool.false_eq_true, if_false,
        List.append_nil] using h
    · have hnext := ((mirrors_opened hn history).appendAll hopened rfl (readAll reader).chunks).stop
      have hstarted : (outcomeOf (readAll reader).ending).hasStarted = true := by
        cases (readAll reader).ending <;> rfl
      rw [hp]
      simpa only [Record.happenings, hstarted, if_true, List.append_assoc, List.cons_append,
        List.nil_append] using hnext

theorem Mirrors.run (h : session.Mirrors history) (hsound : Sound options seen session)
    {operations : List (ThemeLibrary × Operation ρ)} (hl : ∀ entry ∈ operations, seen entry.1)
    (parser : SyntaxParser σ) (s : σ) :
    (session.run parser operations s).2.1.Mirrors
      (history ++ (session.run parser operations s).1.flatMap Record.happenings) := by
  induction operations generalizing session history s with
  | nil => simpa [Session.run] using h
  | cons entry rest ih =>
    obtain ⟨library, operation⟩ := entry
    obtain ⟨hfirst, hrest⟩ := List.forall_mem_cons.mp hl
    have hlater := ih (h.step hsound hfirst parser operation s)
      (hsound.step hfirst operation s) hrest (session.step parser library operation s).2.2
    rw [run_cons]
    simpa only [List.flatMap_cons, List.append_assoc] using hlater

-- A session is always as the history of its operations tells: whether it streams, what its content
-- is, and what its transform has been given. While it does not stream, only a start or the
-- processing of a reader changes anything.
theorem session_mirrors_history (options : SessionOptions) (parser : SyntaxParser σ)
    (operations : List (ThemeLibrary × Operation ρ)) (s : σ) :
    let reached := (Session.new options).run parser operations s
    let session := reached.2.1
    let history := reached.1.flatMap Record.happenings
    session.streaming = session.transform.isSome ∧
    (session.streaming = true ↔ Streaming history) ∧
    session.content = Happening.content history ∧
    (∀ t, session.transform = some t →
      t.source = Happening.source history ∧ (t.finished = true ↔ Finished history)) ∧
    (session.streaming = false → ∀ library (operation : Operation ρ) s, operation.opens = false →
      (session.step parser library operation s).2 = (session, s) ∧
      (session.step parser library operation s).1.emitted = []) := by
  intro reached session history
  have hsound : Sound options (fun _ => True) session :=
    (sound_new options _).run (fun _ _ => trivial) s
  have hmirrors : session.Mirrors history := by
    simpa only [List.nil_append] using
      (mirrors_new options).run (sound_new options fun _ => True) (fun _ _ => trivial) parser s
  refine ⟨?_, hmirrors.streaming, hmirrors.content, hmirrors.source, ?_⟩
  · rcases hsound.idle_or_streams with hi | ⟨t, ht⟩
    · rw [hi.streaming, hi.transform, Option.isSome_none]
    · rw [ht.streaming, ht.transform, Option.isSome_some]
  · intro hs library operation s hopens
    have hi : session.Idle := by
      rcases hsound.idle_or_streams with hi | ⟨t, ht⟩
      · exact hi
      · exact absurd (hs.symm.trans ht.streaming) Bool.false_ne_true
    exact hi.step hopens

end Session

end SyntaxStream
