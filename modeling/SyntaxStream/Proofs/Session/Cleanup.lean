import SyntaxStream.Proofs.Session.Run

namespace SyntaxStream.Session

open ChunkSource

variable {σ ρ κ : Type} {outcome : ReadOutcome}

theorem releases_eq_one (report : ProcessReport) (given : Reading ρ)
    (h : report.events = readEvents given ++ [.release, .stop]) : report.releases = 1 := by
  have hreads : (readEvents given).count .release = 0 := by
    rw [List.count_eq_zero]
    simp [readEvents]
  rw [ProcessReport.releases, h, List.count_append, hreads]
  rfl

-- The last read, which is not of a chunk, decides how processing ends.
theorem outcomeOf_iff (hc : outcome.chunk? = none) :
    (outcomeOf outcome = .done ↔ outcome = .ended) ∧
    (∀ error, outcomeOf outcome = .failed error ↔
      ∃ reason, error = .source reason ∧ outcome = .failed reason) ∧
    (outcomeOf outcome = .cancelled ↔ outcome = .pending) := by
  cases outcome with
  | chunk text => cases hc
  | ended => simp [outcomeOf]
  | pending => simp [outcomeOf]
  | failed reason =>
    refine ⟨by simp [outcomeOf], fun error => ?_, by simp [outcomeOf]⟩
    simp only [outcomeOf, ProcessOutcome.failed.injEq, ReadOutcome.failed.injEq]
    constructor
    · rintro rfl
      exact ⟨reason, rfl, rfl⟩
    · rintro ⟨_, rfl, rfl⟩
      rfl

variable [ChunkSource ρ] [ChunkSource κ]

-- Whatever the reader does, a session that cannot start leaves it alone, and one that starts
-- releases it once, behind the last read and before it stops.
theorem process_cleans_up (options : SessionOptions) (parser : SyntaxParser σ)
    (earlier : List (ThemeLibrary × Operation κ)) (s : σ) (library : ThemeLibrary) (reader : ρ) :
    let session := ((Session.new options).run parser earlier s).2.1
    let result := session.process library reader
    let given := readAll reader
    (∀ reason, (session.start library).1 = .error reason →
      result = (⟨.failed reason, []⟩, session, reader)) ∧
    ((session.start library).1 = .ok () →
      result.1.events = readEvents given ++ [.release, .stop] ∧
      result.1.releases = 1 ∧
      result.2.2 = release given.left ∧
      result.2.1.streaming = false ∧
      result.2.1.transform = none ∧
      result.2.1.content = String.join given.chunks ∧
      (result.1.outcome = .done ↔ given.ending = .ended) ∧
      (∀ error, result.1.outcome = .failed error ↔
        ∃ reason, error = .source reason ∧ given.ending = .failed reason) ∧
      (result.1.outcome = .cancelled ↔ given.ending = .pending)) := by
  intro session result given
  have hsound : Sound options (fun _ => True) session :=
    (sound_new options _).run (fun _ _ => trivial) s
  rcases hsound.process_cases library trivial reader with
    ⟨setup, hs, hp⟩ | ⟨tokenizer, language, transform, hs, hp, -, -⟩
  · refine ⟨fun reason hreason => ?_, fun hok => ?_⟩
    · rw [hs] at hreason
      obtain rfl := Except.error.inj hreason
      exact hp
    · rw [hs] at hok
      cases hok
  · have hresult : result = _ := hp
    refine ⟨fun reason hreason => ?_, fun _ => ?_⟩
    · rw [hs] at hreason
      cases hreason
    · have hevents : result.1.events = readEvents given ++ [.release, .stop] := by rw [hresult]
      refine ⟨hevents, releases_eq_one _ _ hevents, ?_⟩
      rw [hresult]
      exact ⟨rfl, rfl, rfl, String.empty_append, outcomeOf_iff (chunk?_ending reader)⟩

end SyntaxStream.Session
