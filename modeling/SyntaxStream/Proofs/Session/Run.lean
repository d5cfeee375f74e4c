import SyntaxStream.Proofs.Session.Process
import SyntaxStream.Proofs.Session.Start

namespace SyntaxStream

-- What a caller can do with a session, its readers being of one kind.
inductive Operation (ρ : Type) where
  | start
  | append (chunk : String)
  | feed (chunk : String)
  -- gives a chunk to the transform, past the session
  | push (chunk : String)
  | finish
  | stop
  | process (reader : ρ)

-- Whether an operation can start a session.
def Operation.opens {ρ : Type} : Operation ρ → Bool
  | start | process _ => true
  | _ => false

inductive Answer where
  | silent
  | started (result : Except HighlightError Unit)
  | batches (given : List Batch)
  -- nothing is given if there is no transform
  | pushed (given : Option (List Batch))
  | processed (report : Session.ProcessReport)

namespace Answer

def emitted : Answer → List Batch
  | batches given => given
  | pushed given => given.getD []
  | _ => []

end Answer

-- An operation with what it has answered and the session it has led to.
structure Record (ρ : Type) where
  operation : Operation ρ
  answer : Answer
  session : Session

namespace Session

open ChunkSource

variable {σ ρ : Type} [ChunkSource ρ] {parser : SyntaxParser σ} {library : ThemeLibrary}
  {options : SessionOptions} {session : Session} {t : Transform} {seen : ThemeLibrary → Prop}
  {chunk : String} {s : σ}

def step (parser : SyntaxParser σ) (library : ThemeLibrary) (session : Session)
    (operation : Operation ρ) (s : σ) : Answer × Session × σ :=
  match operation with
  | .start =>
    let (result, session) := session.start library
    (.started result, session, s)
  | .append chunk => (.silent, session.append chunk, s)
  | .feed chunk =>
    let (batches, session, s) := session.feed parser chunk s
    (.batches batches, session, s)
  | .push chunk =>
    let (batches, session, s) := session.pushTransform parser chunk s
    (.pushed batches, session, s)
  | .finish =>
    let (batches, session, s) := session.finish parser s
    (.batches batches, session, s)
  | .stop => (.silent, session.stop, s)
  | .process reader =>
    let (report, session, _) := session.process library reader
    (.processed report, session, s)

-- Each operation meets the themes that there are at its time.
def run (parser : SyntaxParser σ) :
    Session → List (ThemeLibrary × Operation ρ) → σ → List (Record ρ) × Session × σ
  | session, [], s => ([], session, s)
  | session, (library, operation) :: rest, s =>
    let (answer, session, s) := session.step parser library operation s
    let (records, last, s) := run parser session rest s
    (⟨operation, answer, session⟩ :: records, last, s)

theorem run_cons (session : Session) (library : ThemeLibrary) (operation : Operation ρ)
    (rest : List (ThemeLibrary × Operation ρ)) (s : σ) :
    session.run parser ((library, operation) :: rest) s =
      let first := session.step parser library operation s
      let later := first.2.1.run parser rest first.2.2
      (⟨operation, first.1, first.2.1⟩ :: later.1, later.2) := rfl

-- A session without a transform, which streams nothing.
structure Idle (session : Session) : Prop where
  streaming : session.streaming = false
  transform : session.transform = none

structure Streams (session : Session) (t : Transform) : Prop where
  streaming : session.streaming = true
  transform : session.transform = some t

theorem Idle.transform_ne (h : session.Idle) : session.transform ≠ some t := by
  rw [h.transform]
  exact Option.some_ne_none t |>.symm

theorem Idle.append (h : session.Idle) (chunk : String) : session.append chunk = session := by
  rw [Session.append, h.streaming, if_neg Bool.false_ne_true]

theorem Idle.feed (h : session.Idle) : session.feed parser chunk s = ([], session, s) := by
  rw [Session.feed, h.streaming, if_neg Bool.false_ne_true]

theorem Idle.pushTransform (h : session.Idle) :
    session.pushTransform parser chunk s = (none, session, s) := by
  rw [Session.pushTransform, h.transform]

theorem Idle.finish (h : session.Idle) : session.finish parser s = ([], session, s) := by
  rw [Session.finish, h.streaming, if_neg Bool.false_ne_true]

theorem Idle.stop (h : session.Idle) : session.stop = session := by
  rw [Session.stop, ← h.streaming, ← h.transform]

-- Without a session going on, nothing but a start has an effect.
theorem Idle.step (h : session.Idle) {operation : Operation ρ} (ho : operation.opens = false) :
    (session.step parser library operation s).2 = (session, s) ∧
      (session.step parser library operation s).1.emitted = [] := by
  cases operation with
  | start => cases ho
  | process reader => cases ho
  | append chunk => exact ⟨by rw [Session.step, h.append], rfl⟩
  | feed chunk => simp only [Session.step, h.feed, Answer.emitted, and_self]
  | push chunk =>
    simp only [Session.step, h.pushTransform, Answer.emitted, Option.getD_none, and_self]
  | finish => simp only [Session.step, h.finish, Answer.emitted, and_self]
  | stop => exact ⟨by rw [Session.step, h.stop], rfl⟩

theorem idle_new (options : SessionOptions) : (Session.new options).Idle := ⟨rfl, rfl⟩

theorem idle_stop (session : Session) : session.stop.Idle := ⟨rfl, rfl⟩

theorem Streams.append (h : session.Streams t) (chunk : String) :
    session.append chunk = { session with content := session.content ++ chunk } := by
  rw [Session.append, if_pos h.streaming]

theorem Streams.pushTransform (h : session.Streams t) :
    session.pushTransform parser chunk s =
      (some (t.push parser chunk s).1,
        { session with transform := some (t.push parser chunk s).2.1 },
        (t.push parser chunk s).2.2) := by
  rw [Session.pushTransform, h.transform]

theorem Streams.feed (h : session.Streams t) :
    session.feed parser chunk s =
      ((t.push parser chunk s).1,
        { session with
          content := session.content ++ chunk
          transform := some (t.push parser chunk s).2.1 },
        (t.push parser chunk s).2.2) := by
  have hnext : (session.append chunk).Streams t := by
    rw [h.append]
    exact ⟨h.streaming, h.transform⟩
  rw [Session.feed, if_pos h.streaming, hnext.pushTransform, h.append]
  rfl

theorem Streams.finish (h : session.Streams t) :
    session.finish parser s =
      ((t.flush parser s).1, { session with transform := some (t.flush parser s).2.1 },
        (t.flush parser s).2.2) := by
  rw [Session.finish, if_pos h.streaming, h.transform]

theorem streams_opened (options : SessionOptions) (tokenizer : Tokenizer) (t : Transform) :
    (opened options tokenizer t).Streams t := ⟨rfl, rfl⟩

-- What holds of a session between any two operations.
structure Sound (options : SessionOptions) (seen : ThemeLibrary → Prop) (session : Session) :
    Prop where
  options_eq : session.options = options
  faithful : session.Faithful seen
  idle_or_streams : session.Idle ∨ ∃ t, session.Streams t

theorem sound_new (options : SessionOptions) (seen : ThemeLibrary → Prop) :
    Sound options seen (Session.new options) :=
  ⟨rfl, faithful_new seen options, Or.inl (idle_new options)⟩

theorem Sound.append (h : Sound options seen session) (chunk : String) :
    Sound options seen (session.append chunk) := by
  rcases h.idle_or_streams with hi | ⟨t, ht⟩
  · rwa [hi.append]
  · rw [ht.append]
    exact ⟨h.options_eq, h.faithful, Or.inr ⟨t, ht.streaming, ht.transform⟩⟩

theorem Sound.pushTransform (h : Sound options seen session) :
    Sound options seen (session.pushTransform parser chunk s).2.1 := by
  rcases h.idle_or_streams with hi | ⟨t, ht⟩
  · rwa [hi.pushTransform]
  · rw [ht.pushTransform]
    exact ⟨h.options_eq, h.faithful, Or.inr ⟨_, ht.streaming, rfl⟩⟩

theorem Sound.finish (h : Sound options seen session) :
    Sound options seen (session.finish parser s).2.1 := by
  rcases h.idle_or_streams with hi | ⟨t, ht⟩
  · rwa [hi.finish]
  · rw [ht.finish]
    exact ⟨h.options_eq, h.faithful, Or.inr ⟨_, ht.streaming, rfl⟩⟩

theorem Sound.stop (h : Sound options seen session) : Sound options seen session.stop :=
  ⟨h.options_eq, h.faithful, Or.inl session.idle_stop⟩

-- Feeding is appending, then pushing, also when nothing streams.
theorem Sound.feed_eq (h : Sound options seen session) :
    session.feed parser chunk s =
      (((session.append chunk).pushTransform parser chunk s).1.getD [],
        ((session.append chunk).pushTransform parser chunk s).2) := by
  rcases h.idle_or_streams with hi | ⟨t, ht⟩
  · rw [hi.feed, hi.append, hi.pushTransform]
    rfl
  · rw [Session.feed, if_pos ht.streaming]

-- What a start does to a session.
theorem Sound.start_cases (h : Sound options seen session) (library : ThemeLibrary)
    (hl : seen library) :
    (∃ setup, session.start library = (.error (.initialization setup), session)) ∨
    ∃ tokenizer language transform,
      session.start library = (.ok (), opened options tokenizer transform) ∧
      Sound options seen (opened options tokenizer transform) ∧
      Transform.new tokenizer language options.themeId options.allowRecalls = .ok transform := by
  obtain ⟨rfl, hf, -⟩ := h
  rcases hf.start_cases hl with herror | ⟨tokenizer, language, transform, hs, hkept, hn⟩
  · exact Or.inl herror
  · have hopened := streams_opened session.options tokenizer transform
    exact Or.inr ⟨tokenizer, language, transform, hs, ⟨rfl, hkept, Or.inr ⟨_, hopened⟩⟩, hn⟩

theorem Sound.appendAll (h : Sound options seen session) (chunks : List String) :
    Sound options seen (session.appendAll chunks) := by
  refine ⟨h.options_eq, h.faithful, h.idle_or_streams.imp ?_ ?_⟩
  · rintro ⟨hs, ht⟩
    exact ⟨hs, ht⟩
  · rintro ⟨t, hs, ht⟩
    exact ⟨t, hs, ht⟩

-- What processing a reader does to a session: nothing if it cannot start, otherwise it leaves a
-- new session that has ended.
theorem Sound.process_cases (h : Sound options seen session) (library : ThemeLibrary)
    (hl : seen library) (reader : ρ) :
    (∃ setup, session.start library = (.error (.initialization setup), session) ∧
      session.process library reader = (⟨.failed (.initialization setup), []⟩, session, reader)) ∨
    ∃ tokenizer language transform,
      session.start library = (.ok (), opened options tokenizer transform) ∧
      session.process library reader =
        (⟨outcomeOf (readAll reader).ending, readEvents (readAll reader) ++ [.release, .stop]⟩,
          ((opened options tokenizer transform).appendAll (readAll reader).chunks).stop,
          release (readAll reader).left) ∧
      Sound options seen (opened options tokenizer transform) ∧
      Transform.new tokenizer language options.themeId options.allowRecalls = .ok transform := by
  rcases h.start_cases library hl with
    ⟨setup, hs⟩ | ⟨tokenizer, language, transform, hs, hsound, hn⟩
  · exact Or.inl ⟨setup, hs, process_of_not_started hs reader⟩
  · exact Or.inr ⟨tokenizer, language, transform, hs, process_of_started hs rfl reader, hsound, hn⟩

theorem Sound.step (h : Sound options seen session) (hl : seen library)
    (operation : Operation ρ) (s : σ) :
    Sound options seen (session.step parser library operation s).2.1 := by
  cases operation with
  | start =>
    simp only [Session.step]
    rcases h.start_cases library hl with ⟨_, hs⟩ | ⟨_, _, _, hs, hsound, -⟩
    · rwa [hs]
    · rwa [hs]
  | append chunk => exact h.append chunk
  | feed chunk =>
    simp only [Session.step, h.feed_eq]
    exact (h.append chunk).pushTransform
  | push chunk => exact h.pushTransform
  | finish => exact h.finish
  | stop => exact h.stop
  | process reader =>
    simp only [Session.step]
    rcases h.process_cases library hl reader with ⟨_, -, hp⟩ | ⟨_, _, _, -, hp, hsound, -⟩
    · rwa [hp]
    · rw [hp]
      exact (hsound.appendAll _).stop

theorem Sound.run {operations : List (ThemeLibrary × Operation ρ)}
    (h : Sound options seen session) (hl : ∀ entry ∈ operations, seen entry.1) (s : σ) :
    Sound options seen (session.run parser operations s).2.1 := by
  induction operations generalizing session s with
  | nil => exact h
  | cons entry rest ih =>
    obtain ⟨hfirst, hrest⟩ := List.forall_mem_cons.mp hl
    exact ih (h.step hfirst entry.2 s) hrest _

end Session

end SyntaxStream
