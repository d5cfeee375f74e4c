import SyntaxStream.Proofs.Session.Run

namespace SyntaxStream

-- What can happen to a session, one thing after the other.
inductive Happening where
  | started
  -- a chunk meant for the content
  | kept (chunk : String)
  -- a chunk meant for the transform
  | given (chunk : String)
  | finished
  | stopped
deriving Repr, DecidableEq

namespace Happening

def kept? : Happening → Option String
  | kept chunk => some chunk
  | _ => none

def given? : Happening → Option String
  | given chunk => some chunk
  | _ => none

-- What has happened since the last start, none if there was no start.
def sinceStart : List Happening → Option (List Happening)
  | [] => none
  | started :: rest => some ((sinceStart rest).getD rest)
  | _ :: rest => sinceStart rest

def recent (history : List Happening) : List Happening := (sinceStart history).getD []

def before (last : Happening) (history : List Happening) : List Happening :=
  history.takeWhile (· ≠ last)

def Streaming (history : List Happening) : Prop :=
  ∃ since, sinceStart history = some since ∧ stopped ∉ since

def Finished (history : List Happening) : Prop := finished ∈ recent history

-- The chunks that were kept while the last session lasted.
def content (history : List Happening) : String :=
  String.join ((before stopped (recent history)).filterMap kept?)

-- The chunks that the last transform was given before its input ended.
def source (history : List Happening) : String :=
  String.join ((before finished (recent history)).filterMap given?)

theorem sinceStart_started (history : List Happening) :
    sinceStart (history ++ [started]) = some [] := by
  induction history with
  | nil => rfl
  | cons first rest ih => cases first <;> simp [sinceStart, ih]

theorem sinceStart_concat {next : Happening} (hn : next ≠ started) (history : List Happening) :
    sinceStart (history ++ [next]) = (sinceStart history).map (· ++ [next]) := by
  induction history with
  | nil => cases next <;> simp_all [sinceStart]
  | cons first rest ih =>
    cases first with
    | started =>
      simp only [List.cons_append, sinceStart, ih]
      cases sinceStart rest <;> rfl
    | _ => simpa only [List.cons_append, sinceStart] using ih

theorem before_concat_of_mem {last : Happening} {history : List Happening} (h : last ∈ history)
    (next : Happening) : before last (history ++ [next]) = before last history := by
  induction history with
  | nil => cases h
  | cons first rest ih =>
    by_cases hf : first = last
    · simp [before, hf]
    · have hr : last ∈ rest := (List.mem_cons.mp h).resolve_left (Ne.symm hf)
      simpa [before, hf] using ih hr

theorem before_of_notMem {last : Happening} {history : List Happening} (h : last ∉ history) :
    before last history = history := by
  rw [before, List.takeWhile_eq_self_iff]
  intro happening hm
  rw [decide_eq_true_eq]
  rintro rfl
  exact h hm

theorem before_concat_of_notMem {last : Happening} {history : List Happening} (h : last ∉ history)
    (next : Happening) :
    before last (history ++ [next]) = history ++ before last [next] := by
  have hall := before_of_notMem h
  rw [before, List.takeWhile_eq_self_iff] at hall
  exact List.takeWhile_append_of_pos hall

theorem streaming_started (history : List Happening) : Streaming (history ++ [started]) :=
  ⟨[], sinceStart_started history, List.not_mem_nil⟩

theorem recent_started (history : List Happening) : recent (history ++ [started]) = [] := by
  rw [recent, sinceStart_started, Option.getD_some]

variable {history : List Happening} {next : Happening}

theorem streaming_concat (hn : next ≠ started) :
    Streaming (history ++ [next]) ↔ Streaming history ∧ next ≠ stopped := by
  rw [Streaming, Streaming, sinceStart_concat hn]
  cases sinceStart history with
  | none => simp
  | some since => simp [eq_comm]

theorem recent_concat (hn : next ≠ started) (hs : Streaming history) :
    recent (history ++ [next]) = recent history ++ [next] := by
  obtain ⟨since, hsince, -⟩ := hs
  rw [recent, recent, sinceStart_concat hn, hsince]
  rfl

theorem finished_concat (hn : next ≠ started) (hs : Streaming history) :
    Finished (history ++ [next]) ↔ Finished history ∨ next = finished := by
  rw [Finished, recent_concat hn hs, List.mem_append, List.mem_singleton, eq_comm, Finished]

theorem join_toList (text : Option String) : String.join text.toList = text.getD "" := by
  cases text <;> simp

theorem content_concat (hn : next ≠ started) (hs : Streaming history) :
    content (history ++ [next]) = content history ++ next.kept?.getD "" := by
  have hopen : stopped ∉ recent history := by
    obtain ⟨since, hsince, hopen⟩ := hs
    rwa [recent, hsince]
  have hlast : (before stopped [next]).filterMap kept? = next.kept?.toList := by cases next <;> rfl
  rw [content, content, recent_concat hn hs, before_concat_of_notMem hopen,
    before_of_notMem hopen, List.filterMap_append, String.join_append, hlast, join_toList]

theorem content_concat_of_not_streaming (hn : next ≠ started) (hs : ¬ Streaming history) :
    content (history ++ [next]) = content history := by
  rw [content, content, recent, recent, sinceStart_concat hn]
  cases hsince : sinceStart history with
  | none => rfl
  | some since =>
    have hstopped : stopped ∈ since := by
      by_contra hopen
      exact hs ⟨since, hsince, hopen⟩
    simp only [Option.map_some, Option.getD_some, before_concat_of_mem hstopped]

theorem source_concat (hn : next ≠ started) (hs : Streaming history) (hf : ¬ Finished history) :
    source (history ++ [next]) = source history ++ next.given?.getD "" := by
  have hlast : (before finished [next]).filterMap given? = next.given?.toList := by
    cases next <;> rfl
  rw [source, source, recent_concat hn hs, before_concat_of_notMem hf, before_of_notMem hf,
    List.filterMap_append, String.join_append, hlast, join_toList]

theorem source_concat_of_finished (hn : next ≠ started) (hs : Streaming history)
    (hf : Finished history) : source (history ++ [next]) = source history := by
  rw [source, source, recent_concat hn hs, before_concat_of_mem hf]

end Happening

end SyntaxStream
