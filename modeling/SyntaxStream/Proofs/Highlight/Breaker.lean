import SyntaxStream.Proofs.Highlight.Interleaving
import SyntaxStream.Proofs.Highlight.Lines

namespace SyntaxStream.Dispatch

variable {σ : Type} {parser : SyntaxParser σ} {library : ThemeLibrary} {calls : Nat → Call}
  {request : HighlightRequest} {here : σ → HighlightResult}

section Call

def Step.isIssue : Step σ → Bool
  | .issue => true
  | _ => false

def Step.answer? : Step σ → Option (Except HighlightError HighlightResult)
  | .answer told => some told
  | _ => none

-- How often the service is asked.
def fetches (steps : List (Step σ)) : Nat := steps.countP Step.isIssue

-- What the service answers.
def answers (steps : List (Step σ)) : List (Except HighlightError HighlightResult) :=
  steps.filterMap Step.answer?

-- A result that comes from highlighting here.
def ComesFromHere (here : σ → HighlightResult) (steps : List (Step σ))
    (result : HighlightResult) : Prop :=
  ∃ s, .highlight s ∈ steps ∧ result = here s

-- The right result of a call, given what it asked and what it was answered.
def Settles (request : HighlightRequest) (here : σ → HighlightResult) (steps : List (Step σ))
    (result : HighlightResult) : Prop :=
  match answers steps with
  | [] => fetches steps = 0 ∧ ComesFromHere here steps result
  | [.ok fetched] => result = fetched
  | [.error .unavailable] => ComesFromHere here steps result
  | [.error _] => result = .plain request.code
  | _ => False

-- All that a call can have gone through by the time it is in a phase.
inductive History (request : HighlightRequest) (here : σ → HighlightResult) :
    List (Step σ) → Phase → Prop
  | idle : History request here [] .idle
  | cleared : History request here [.check] .cleared
  | waiting : History request here [.check, .issue] .waiting
  | used (result) : History request here [.check, .issue, .answer (.ok result)] (.done result)
  | failed (reason) (hr : reason ≠ .unavailable) :
    History request here [.check, .issue, .answer (.error reason)] (.done (.plain request.code))
  | refused : History request here [.check, .issue, .answer (.error .unavailable)] .refused
  | tripped :
    History request here [.check, .issue, .answer (.error .unavailable), .trip] .staying
  | stayed : History request here [.check] .staying
  | highlighted (s) : History request here [.check, .highlight s] (.done (here s))
  | recovered (s) :
    History request here [.check, .issue, .answer (.error .unavailable), .trip, .highlight s]
      (.done (here s))

variable {steps more : List (Step σ)} {phase next last : Phase} {st : Step σ}
  {result : HighlightResult}

theorem afterAnswer_of_ne {reason : HighlightError} (hr : reason ≠ .unavailable)
    (request : HighlightRequest) :
    afterAnswer request (.error reason) = .done (.plain request.code) := by
  cases reason with
  | unavailable => exact absurd rfl hr
  | _ => rfl

theorem History.concat (h : History request here steps phase)
    (hm : Moves request here phase st next) :
    History request here (steps ++ [st]) next := by
  cases hm with
  | clear => cases h with | idle => exact .cleared
  | stay => cases h with | idle => exact .stayed
  | issue => cases h with | cleared => exact .waiting
  | answer answer =>
    cases h with
    | waiting =>
      obtain reason | result := answer
      · by_cases hr : reason = .unavailable
        · subst hr
          exact .refused
        · rw [afterAnswer_of_ne hr]
          exact .failed reason hr
      · exact .used result
  | trip => cases h with | refused => exact .tripped
  | highlight s =>
    cases h with
    | tripped => exact .recovered s
    | stayed => exact .highlighted s

theorem History.append (h : History request here steps phase)
    (hc : Course request here phase more last) :
    History request here (steps ++ more) last := by
  induction hc generalizing steps with
  | stop => rwa [List.append_nil]
  | move head _ ih =>
    rw [List.append_cons]
    exact ih (h.concat head)

theorem History.eq_nil_of_idle (h : History request here steps .idle) : steps = [] := by
  cases h with
  | idle => rfl

theorem History.answers_of_refused (h : History request here steps .refused) :
    answers steps = [.error .unavailable] := by
  cases h with
  | refused => rfl

theorem History.of_unavailable (h : History request here steps phase)
    (hm : .answer (.error .unavailable) ∈ steps) : phase = .refused ∨ .trip ∈ steps := by
  cases h with
  | failed reason hr => simp [Ne.symm hr] at hm
  | refused => exact .inl rfl
  | tripped => exact .inr (by simp)
  | recovered => exact .inr (by simp)
  | _ => simp at hm

theorem History.of_used {fetched : HighlightResult} (h : History request here steps phase)
    (hm : .answer (.ok fetched) ∈ steps) : phase = .done fetched := by
  cases h with
  | used => simp_all
  | _ => simp at hm

theorem History.of_failed {reason : HighlightError} (h : History request here steps phase)
    (hm : .answer (.error reason) ∈ steps) (hr : reason ≠ .unavailable) :
    phase = .done (.plain request.code) ∧ .trip ∉ steps := by
  cases h with
  | failed => simp
  | _ => simp_all

theorem History.settles (h : History request here steps (.done result)) :
    Settles request here steps result := by
  cases h with
  | used => rfl
  | failed reason hr =>
    cases reason with
    | unavailable => exact absurd rfl hr
    | _ => rfl
  | highlighted s => exact ⟨rfl, s, by simp, rfl⟩
  | recovered s => exact ⟨s, by simp, rfl⟩

-- Whatever does not come from the service has the text of the code.
theorem Settles.textContent (h : Settles request here steps result)
    (hh : ∀ s, (here s).textContent = request.code)
    (hn : ∀ fetched, answers steps ≠ [.ok fetched]) : result.textContent = request.code := by
  have hhere : ComesFromHere here steps result → result.textContent = request.code := by
    rintro ⟨s, -, rfl⟩
    exact hh s
  unfold Settles at h
  split at h
  · exact hhere h.2
  · exact absurd ‹_› (hn _)
  · exact hhere h
  · rw [h, HighlightResult.textContent_plain]
  · exact h.elim

-- The fetches that are still to be issued.
def Phase.due : Phase → Nat
  | .cleared => 1
  | _ => 0

theorem due_afterAnswer (request : HighlightRequest)
    (answer : Except HighlightError HighlightResult) :
    afterAnswer request answer ≠ .idle ∧ (afterAnswer request answer).due = 0 := by
  rw [afterAnswer]
  cases verdict answer <;> exact ⟨Phase.noConfusion, rfl⟩

theorem fetches_of_moves (h : Moves request here phase st next) (hp : phase ≠ .idle) :
    next ≠ .idle ∧ fetches [st] + next.due = phase.due := by
  cases h with
  | clear => exact absurd rfl hp
  | stay => exact absurd rfl hp
  | issue => exact ⟨Phase.noConfusion, rfl⟩
  | answer answer =>
    obtain ⟨hnext, hdue⟩ := due_afterAnswer request answer
    refine ⟨hnext, ?_⟩
    rw [hdue]
    rfl
  | trip => exact ⟨Phase.noConfusion, rfl⟩
  | highlight s => exact ⟨Phase.noConfusion, rfl⟩

-- Once a call has looked at the breaker, it issues the fetches that are due.
theorem fetches_of_course (h : Course request here phase steps last) (hp : phase ≠ .idle) :
    fetches steps + last.due = phase.due := by
  induction h with
  | stop phase => exact Nat.zero_add _
  | @move _ st _ steps _ head _ ih =>
    obtain ⟨hnext, hfetches⟩ := fetches_of_moves head hp
    have hrest := ih hnext
    have hcons : fetches (st :: steps) = fetches [st] + fetches steps := by
      rw [← List.singleton_append, fetches, List.countP_append]
      rfl
    omega

theorem due_eq_zero_iff : phase.due = 0 ↔ phase ≠ .cleared := by
  cases phase <;> simp [Phase.due]

end Call

section Breaker

variable {sys sys' final : System} {event : Event σ} {events before after : List (Event σ)}
  {locals : Nat → LocalHighlighter} {id : Nat}

theorem breaker_of_step (h : step parser library calls sys event = some sys') :
    sys'.breaker = ⟨sys.breaker.tripped || event.isTrip⟩ ∧
      sys'.told = sys.told ++ if event.isTrip then [!sys.breaker.tripped] else [] := by
  cases event with
  | trip =>
    obtain rfl := Option.some.inj h
    simp [Event.isTrip, System.trip, CircuitBreaker.trip]
  | call id st =>
    obtain ⟨rfl, -, rfl⟩ | ⟨rfl, -, rfl⟩ | ⟨answer, rfl, -, rfl⟩ | ⟨rfl, -, rfl⟩ |
      ⟨s, rfl, -, rfl⟩ := step_call_cases h
    all_goals simp [Event.isTrip, System.trip, CircuitBreaker.trip]

-- The breaker is tripped by the first trip. All later ones are told so.
theorem breaker_of_run (h : run parser library calls (.start locals) events = some final) :
    final.breaker = ⟨events.any Event.isTrip⟩ ∧
      final.told = (List.range (events.countP Event.isTrip)).map (· == 0) := by
  -- on the last event: what a trip is told depends on the trips before it
  induction events using List.reverseRecOn generalizing final with
  | nil =>
    obtain rfl : System.start locals = final := Option.some.inj h
    exact ⟨rfl, rfl⟩
  | append_singleton events event ih =>
    obtain ⟨mid, hrun, hlast⟩ := exists_of_run_append h
    obtain ⟨last, hstep, hend⟩ := exists_of_run_cons hlast
    obtain rfl : last = final := Option.some.inj hend
    obtain ⟨hbreaker, htold⟩ := ih hrun
    obtain ⟨hbreaker', htold'⟩ := breaker_of_step hstep
    rw [hbreaker] at hbreaker' htold'
    rw [htold] at htold'
    have hfirst : (!events.any Event.isTrip) = (events.countP Event.isTrip == 0) := by
      rw [Bool.eq_iff_iff]
      simp [List.countP_eq_zero]
    constructor
    · rw [hbreaker', List.any_append, List.any_cons, List.any_nil, Bool.or_false]
    · rw [htold', List.countP_append, List.countP_singleton, hfirst]
      by_cases he : event.isTrip
      · rw [if_pos he, if_pos he, List.range_succ, List.map_append, List.map_singleton]
      · rw [if_neg he, if_neg he, List.append_nil, Nat.add_zero]

theorem history_of_run (hf : ∀ n, (locals n).Faithful library)
    (h : run parser library calls (.start locals) events = some final) (id : Nat) :
    History (calls id).request ((calls id).here parser library locals) (stepsOf id events)
      (final.phase id) :=
  History.idle.append (course_of_run hf hf h id)

-- What the breaker went through in a run.
structure BreakerLaw (parser : SyntaxParser σ) (library : ThemeLibrary) (calls : Nat → Call)
    (locals : Nat → LocalHighlighter) (events : List (Event σ)) (final : System) : Prop where
  -- the service counts as available up to the first trip, and not after it
  available : ∀ before after, events = before ++ after →
    ∃ sys, run parser library calls (.start locals) before = some sys ∧
      sys.breaker.remoteAvailable = !before.any Event.isTrip
  -- the first trip is told that it is the first, and no other one is
  told : final.told = (List.range (events.countP Event.isTrip)).map (· == 0)
  -- a call trips the breaker when it was answered that the service is absent
  caused : ∀ id before after, events = before ++ .call id .trip :: after →
    answers (stepsOf id before) = [.error .unavailable]

-- What a call went through in a run, with what it highlights here.
structure CallLaw (request : HighlightRequest) (here : σ → HighlightResult) (id : Nat)
    (events : List (Event σ)) (phase : Phase) : Prop where
  -- the service is not asked if the breaker was tripped when the call looked at it
  stays : ∀ before after, events = before ++ .call id .check :: after →
    before.any Event.isTrip = true → fetches (stepsOf id events) = 0
  -- otherwise it is asked next, and only once
  asks : ∀ before after, events = before ++ .call id .check :: after →
    before.any Event.isTrip = false →
    phase = .cleared ∧ fetches (stepsOf id events) = 0 ∨
      phase ≠ .cleared ∧ fetches (stepsOf id events) = 1
  settles : ∀ result, phase = .done result → Settles request here (stepsOf id events) result
  textContent : ∀ result, phase = .done result →
    (∀ fetched, answers (stepsOf id events) ≠ [.ok fetched]) → result.textContent = request.code
  -- a call that is told of the absence of the service trips the breaker next
  trips : .answer (.error .unavailable) ∈ stepsOf id events →
    phase = .refused ∨ .trip ∈ stepsOf id events
  uses : ∀ fetched, .answer (.ok fetched) ∈ stepsOf id events → phase = .done fetched
  -- any other failure of the service ends the call, and leaves the breaker alone
  passes : ∀ reason, .answer (.error reason) ∈ stepsOf id events → reason ≠ .unavailable →
    phase = .done (.plain request.code) ∧ .trip ∉ stepsOf id events

theorem breakerLaw_of_run (hf : ∀ n, (locals n).Faithful library)
    (h : run parser library calls (.start locals) events = some final) :
    BreakerLaw parser library calls locals events final where
  available before after he := by
    rw [he] at h
    obtain ⟨mid, hrun, -⟩ := exists_of_run_append h
    refine ⟨mid, hrun, ?_⟩
    rw [(breaker_of_run hrun).1]
    rfl
  told := (breaker_of_run h).2
  caused id before after he := by
    rw [he] at h
    obtain ⟨mid, next, hrun, hstep, -⟩ := exists_of_run_split h
    obtain ⟨hp, -⟩ := of_step_trip hstep
    have hhistory := history_of_run hf hrun id
    rw [hp] at hhistory
    exact hhistory.answers_of_refused

-- The fetches a call issues, by what the breaker was like when the call looked at it.
theorem fetches_of_run (hf : ∀ n, (locals n).Faithful library)
    (h : run parser library calls (.start locals) (before ++ .call id .check :: after) =
      some final) :
    fetches (stepsOf id (before ++ .call id .check :: after)) + (final.phase id).due =
      if before.any Event.isTrip then 0 else 1 := by
  -- the call has done nothing before it looks at the breaker, and all it asks comes after that
  obtain ⟨mid, next, hrun, hstep, hafter⟩ := exists_of_run_split h
  obtain ⟨hp, hnext⟩ := of_step_check hstep
  have hbefore := history_of_run hf hrun id
  have hcourse := course_of_run hf (faithful_of_step (faithful_of_run hf hrun) hstep) hafter id
  rw [hp] at hbefore
  have hsteps : stepsOf id (before ++ .call id .check :: after) = .check :: stepsOf id after := by
    rw [stepsOf_append, hbefore.eq_nil_of_idle, List.nil_append, ← List.singleton_append,
      stepsOf_append, stepsOf_self, List.singleton_append]
  have hphase : next.phase id = if before.any Event.isTrip then .staying else .cleared := by
    rw [hnext, System.phase_enter_self, (breaker_of_run hrun).1]
    cases before.any Event.isTrip <;> rfl
  have hfetches := fetches_of_course hcourse (by rw [hphase]; split <;> exact Phase.noConfusion)
  have hcheck : fetches (.check :: stepsOf id after) = fetches (stepsOf id after) := rfl
  rw [hsteps, hcheck, hfetches, hphase]
  split <;> rfl

theorem callLaw_of_run (hf : ∀ n, (locals n).Faithful library)
    (h : run parser library calls (.start locals) events = some final) (id : Nat) :
    CallLaw (calls id).request ((calls id).here parser library locals) id events
      (final.phase id) := by
  have hhistory := history_of_run hf h id
  have htext : ∀ s, ((calls id).here parser library locals s).textContent =
      (calls id).request.code :=
    (locals (calls id).highlighter).textContent_resolve parser library (calls id).request
  refine ⟨fun before after he ht => ?_, fun before after he ht => ?_, fun result hd => ?_,
    fun result hd hn => ?_, hhistory.of_unavailable, fun fetched hm => hhistory.of_used hm,
    fun reason hm hr => hhistory.of_failed hm hr⟩
  · rw [he] at h
    have hfetches := fetches_of_run hf h
    rw [if_pos ht] at hfetches
    rw [he]
    omega
  · rw [he] at h
    have hfetches := fetches_of_run hf h
    rw [ht, if_neg Bool.false_ne_true] at hfetches
    rw [he]
    by_cases hp : final.phase id = .cleared
    · rw [hp, Phase.due] at hfetches
      exact .inl ⟨hp, by omega⟩
    · rw [due_eq_zero_iff.mpr hp] at hfetches
      exact .inr ⟨hp, by omega⟩
  · rw [hd] at hhistory
    exact hhistory.settles
  · rw [hd] at hhistory
    exact hhistory.settles.textContent htext hn

-- Calls of highlighters that share a breaker, and trips of the breaker by others, whatever the
-- order of their steps and whatever the service answers. A call that nothing comes between from
-- then on does what its highlighter does at once.
theorem breaker_protocol {τ : Type} (parser : SyntaxParser σ) (library : ThemeLibrary)
    (calls : Nat → Call) (locals : Nat → LocalHighlighter) (events : List (Event σ))
    (final : System) (hf : ∀ n, (locals n).Faithful library)
    (h : run parser library calls (.start locals) events = some final) :
    BreakerLaw parser library calls locals events final ∧
      (∀ id, CallLaw (calls id).request ((calls id).here parser library locals) id events
        (final.phase id)) ∧
      ∀ id (transport : Transport τ) (s : σ) (t : τ), final.phase id = .idle →
        let alone := final.highlighter (calls id)
        let resolved := alone.resolve parser library transport (calls id).request s t
        ∃ last, run parser library calls final
            ((ownSteps alone transport (calls id).request s t).map (.call id)) = some last ∧
          last.phase id = .done resolved.1 ∧ last.highlighter (calls id) = resolved.2.1 :=
  ⟨breakerLaw_of_run hf h, callLaw_of_run hf h,
    fun _ transport s t hp => run_ownSteps rfl hp transport s t⟩

-- Four calls. Two of them are still in flight when the breaker is tripped by someone else, and
-- the fourth one looks at it after that.
theorem breaker_protocol_four :
    let parser := SyntaxParser.ofCaptures [⟨0, 2, 0, "keyword"⟩]
    let fetched : HighlightResult := ⟨[.text "seen"], "", ""⟩
    let calls : Nat → Call := fun _ => ⟨0, ⟨"fn f() \x7b\x7d\n", "rust", .single "bare", .none⟩⟩
    let locals : Nat → LocalHighlighter := fun _ => .fresh
    let events : List (Event Unit) :=
      [.call 0 .check, .call 1 .check, .call 2 .check, .call 0 .issue, .call 1 .issue,
        .call 0 (.answer (.error .unavailable)), .trip, .call 3 .check, .call 2 .issue,
        .call 1 (.answer (.ok fetched)), .call 0 .trip, .call 3 (.highlight ()),
        .call 2 (.answer (.error (.status 500))), .call 0 (.highlight ())]
    (∀ n, (locals n).Faithful .bare) ∧
      ∃ final, run parser .bare calls (.start locals) events = some final ∧
        final.told = [true, false] ∧ final.breaker.remoteAvailable = false ∧
        fetches (stepsOf 3 events) = 0 ∧
        final.phase 1 = .done fetched ∧ final.phase 2 = .done (.plain (calls 2).request.code) ∧
        ∀ result, final.phase 0 = .done result →
          result = (calls 0).here parser .bare locals () := by
  intro parser fetched calls locals events
  have hfaithful : ∀ n, (locals n).Faithful .bare := fun _ => LocalHighlighter.faithful_fresh .bare
  have hsome : (run parser .bare calls (.start locals) events).isSome := by decide +kernel
  obtain ⟨final, hrun⟩ := Option.isSome_iff_exists.mp hsome
  obtain ⟨hbreaker, hcalls, -⟩ := breaker_protocol (τ := Unit) parser .bare calls locals events
    final hfaithful hrun
  obtain ⟨last, hlast, havailable⟩ := hbreaker.available events [] (List.append_nil events).symm
  obtain rfl : final = last := Option.some.inj (hrun.symm.trans hlast)
  have hfetches := (hcalls 3).stays (events.take 7) (events.drop 8) rfl rfl
  have hfetched := (hcalls 1).uses fetched (by simp [events, stepsOf])
  have hfailed := (hcalls 2).passes (.status 500) (by simp [events, stepsOf]) (by decide)
  refine ⟨hfaithful, final, hrun, hbreaker.told, havailable, hfetches, hfetched, hfailed.1,
    fun result hd => ?_⟩
  obtain ⟨_, -, hresult⟩ := (hcalls 0).settles result hd
  exact hresult

end Breaker

end SyntaxStream.Dispatch
