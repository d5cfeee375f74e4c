import SyntaxStream.Session

namespace SyntaxStream

-- What reading a source over and over comes to: its chunks, what is answered in the place of a
-- further one, and what is left of the source then.
structure Reading (ρ : Type) where
  chunks : List String
  ending : ReadOutcome
  left : ρ

namespace ChunkSource

variable {ρ : Type} [ChunkSource ρ]

def readAll (r : ρ) : Reading ρ :=
  match _h : read r with
  | (.chunk text, r') =>
    let later := readAll r'
    { later with chunks := text :: later.chunks }
  | (outcome, r') => ⟨[], outcome, r'⟩
termination_by waiting r
decreasing_by exact waiting_read_lt _h

theorem readAll_of_chunk {r r' : ρ} {text : String} (h : read r = (.chunk text, r')) :
    readAll r = { readAll r' with chunks := text :: (readAll r').chunks } := by
  rw [readAll]
  split
  · rename_i hr
    obtain ⟨⟨⟩, rfl⟩ := Prod.mk.inj (hr.symm.trans h)
    rfl
  · rename_i outcome _ hne hr
    obtain ⟨rfl, rfl⟩ := Prod.mk.inj (hr.symm.trans h)
    exact absurd rfl (hne text)

theorem readAll_of_not_chunk {r r' : ρ} {outcome : ReadOutcome} (h : read r = (outcome, r'))
    (hc : outcome.chunk? = none) : readAll r = ⟨[], outcome, r'⟩ := by
  rw [readAll]
  split
  · rename_i hr
    obtain ⟨rfl, rfl⟩ := Prod.mk.inj (hr.symm.trans h)
    cases hc
  · rename_i hr
    obtain ⟨rfl, rfl⟩ := Prod.mk.inj (hr.symm.trans h)
    rfl

theorem chunk?_ending (r : ρ) : (readAll r).ending.chunk? = none := by
  fun_induction readAll r with
  | case1 r text r' hread later ih => exact ih
  | case2 r outcome r' hne hread =>
    cases outcome with
    | chunk text => exact absurd rfl (hne text)
    | _ => rfl

end ChunkSource

namespace Session

open ChunkSource

variable {ρ : Type} [ChunkSource ρ] {session started : Session} {library : ThemeLibrary}

-- How processing ends, by what has been read in the place of a chunk.
def outcomeOf : ReadOutcome → ProcessOutcome
  | .failed reason => .failed (.source reason)
  | .pending => .cancelled
  | _ => .done

-- One read for each chunk, and the last one.
def readEvents (given : Reading ρ) : List ProcessEvent :=
  (given.chunks.map fun text => .read (.chunk text)) ++ [.read given.ending]

-- The session after the chunks, all of which are appended.
def appendAll (session : Session) (chunks : List String) : Session :=
  { session with content := session.content ++ String.join chunks }

@[simp] theorem appendAll_nil (session : Session) : session.appendAll [] = session := by
  simp [appendAll]

theorem appendAll_cons (session : Session) (text : String) (chunks : List String)
    (h : session.streaming = true) :
    session.appendAll (text :: chunks) = (session.append text).appendAll chunks := by
  simp [appendAll, append, h, String.append_assoc]

theorem streaming_append (session : Session) (chunk : String) :
    (session.append chunk).streaming = session.streaming := by
  unfold append
  split <;> rfl

-- Every read is recorded; the chunks go into the session one after another.
theorem Processing.pull_eq (p : Processing ρ) (h : p.session.streaming = true) :
    p.pull = (outcomeOf (readAll p.reader).ending,
      { session := p.session.appendAll (readAll p.reader).chunks
        reader := (readAll p.reader).left
        events := p.events ++ readEvents (readAll p.reader) }) := by
  fun_induction Processing.pull p with
  | case1 p text reader hread p' ih =>
    have hmore := ih (by rw [streaming_append]; exact h)
    simp only [Processing.saw, p'] at hmore
    refine hmore.trans ?_
    rw [readAll_of_chunk hread]
    simp only [appendAll_cons _ _ _ h, readEvents, List.map_cons, List.append_assoc,
      List.cons_append, List.nil_append]
  | case2 p reader hread =>
    rw [readAll_of_not_chunk hread rfl]
    simp [outcomeOf, readEvents, Processing.saw]
  | case3 p reason reader hread =>
    rw [readAll_of_not_chunk hread rfl]
    simp [outcomeOf, readEvents, Processing.saw]
  | case4 p reader hread =>
    rw [readAll_of_not_chunk hread rfl]
    simp [outcomeOf, readEvents, Processing.saw]

theorem process_of_not_started {reason : HighlightError}
    (h : session.start library = (.error reason, session)) (reader : ρ) :
    session.process library reader = (⟨.failed reason, []⟩, session, reader) := by
  rw [process, h]

-- Once the session has started, the two guards are dropped in their order after the last read.
theorem process_of_started (h : session.start library = (.ok (), started))
    (hs : started.streaming = true) (reader : ρ) :
    session.process library reader =
      (⟨outcomeOf (readAll reader).ending,
        readEvents (readAll reader) ++ [.release, .stop]⟩,
      (started.appendAll (readAll reader).chunks).stop, release (readAll reader).left) := by
  rw [process, h]
  simp only [Processing.pull_eq ⟨started, reader, []⟩ hs]
  simp [Processing.leave, Processing.drop]

end Session

end SyntaxStream
