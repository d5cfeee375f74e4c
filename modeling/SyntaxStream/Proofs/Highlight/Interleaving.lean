import SyntaxStream.Highlight.Dispatch
import SyntaxStream.Proofs.Highlight.Cache
import Mathlib.Logic.Function.Basic

namespace SyntaxStream.Dispatch

variable {σ : Type}

-- A step of a call. Whatever the transport answers and whatever the parser is like when the block
-- is highlighted here comes with the step.
inductive Step (σ : Type) where
  | check
  | issue
  | answer (answer : Except HighlightError HighlightResult)
  | trip
  | highlight (s : σ)

-- What happens: a step of one of the calls, or a trip of the breaker by someone else.
inductive Event (σ : Type) where
  | call (id : Nat) (step : Step σ)
  | trip

def Event.isTrip : Event σ → Bool
  | .trip => true
  | .call _ .trip => true
  | .call _ _ => false

-- How far a call has come.
inductive Phase where
  | idle
  -- the service counts as available, and has not been asked yet
  | cleared
  | waiting
  -- the service is absent, and the breaker has not been tripped yet
  | refused
  -- the block is going to be highlighted here
  | staying
  | done (result : HighlightResult)

-- A call of one of the highlighters that share the breaker.
structure Call where
  highlighter : Nat
  request : HighlightRequest

-- What a call makes of its block here, with local highlighters as they are at some time.
def Call.here (parser : SyntaxParser σ) (library : ThemeLibrary)
    (locals : Nat → LocalHighlighter) (call : Call) (s : σ) : HighlightResult :=
  ((locals call.highlighter).resolve parser library call.request s).1

structure System where
  breaker : CircuitBreaker
  locals : Nat → LocalHighlighter
  phase : Nat → Phase
  -- what the trips of the breaker told so far
  told : List Bool

namespace System

def start (locals : Nat → LocalHighlighter) : System := ⟨.closed, locals, fun _ => .idle, []⟩

-- The highlighter of a call, as it is now.
def highlighter (sys : System) (call : Call) : DefaultHighlighter :=
  ⟨sys.breaker, sys.locals call.highlighter⟩

def enter (sys : System) (id : Nat) (phase : Phase) : System :=
  { sys with phase := Function.update sys.phase id phase }

def trip (sys : System) : System :=
  { sys with breaker := sys.breaker.trip.2, told := sys.told ++ [sys.breaker.trip.1] }

-- A call is done, and its local highlighter has kept something.
def settle (sys : System) (id highlighter : Nat) (result : HighlightResult)
    (kept : LocalHighlighter) : System :=
  { sys with locals := Function.update sys.locals highlighter kept }.enter id (.done result)

-- Highlights a block with the local highlighter of its call.
def highlight (parser : SyntaxParser σ) (library : ThemeLibrary) (sys : System) (id : Nat)
    (call : Call) (s : σ) : System :=
  let (result, kept, _) := (sys.locals call.highlighter).resolve parser library call.request s
  sys.settle id call.highlighter result kept

@[simp]
theorem phase_enter_self (sys : System) (id : Nat) (phase : Phase) :
    (sys.enter id phase).phase id = phase :=
  Function.update_self ..

theorem phase_enter_of_ne (sys : System) {id other : Nat} (phase : Phase) (hne : other ≠ id) :
    (sys.enter id phase).phase other = sys.phase other :=
  Function.update_of_ne hne ..

@[simp]
theorem breaker_enter (sys : System) (id : Nat) (phase : Phase) :
    (sys.enter id phase).breaker = sys.breaker := rfl

@[simp]
theorem told_enter (sys : System) (id : Nat) (phase : Phase) :
    (sys.enter id phase).told = sys.told := rfl

theorem highlighter_enter (sys : System) (id : Nat) (phase : Phase) (call : Call) :
    (sys.enter id phase).highlighter call = sys.highlighter call := rfl

theorem highlighter_trip (sys : System) (call : Call) :
    sys.trip.highlighter call =
      ⟨(sys.highlighter call).breaker.trip.2, (sys.highlighter call).localHighlighter⟩ := rfl

@[simp]
theorem phase_settle_self (sys : System) (id highlighter : Nat) (result : HighlightResult)
    (kept : LocalHighlighter) : (sys.settle id highlighter result kept).phase id = .done result :=
  phase_enter_self ..

theorem phase_settle_of_ne (sys : System) {id other : Nat} (highlighter : Nat)
    (result : HighlightResult) (kept : LocalHighlighter) (hne : other ≠ id) :
    (sys.settle id highlighter result kept).phase other = sys.phase other :=
  phase_enter_of_ne _ _ hne

@[simp]
theorem breaker_settle (sys : System) (id highlighter : Nat) (result : HighlightResult)
    (kept : LocalHighlighter) : (sys.settle id highlighter result kept).breaker = sys.breaker := rfl

@[simp]
theorem locals_settle (sys : System) (id highlighter : Nat) (result : HighlightResult)
    (kept : LocalHighlighter) :
    (sys.settle id highlighter result kept).locals =
      Function.update sys.locals highlighter kept := rfl

@[simp]
theorem told_settle (sys : System) (id highlighter : Nat) (result : HighlightResult)
    (kept : LocalHighlighter) : (sys.settle id highlighter result kept).told = sys.told := rfl

theorem highlight_eq (parser : SyntaxParser σ) (library : ThemeLibrary) (sys : System) (id : Nat)
    (call : Call) (s : σ) :
    sys.highlight parser library id call s =
      sys.settle id call.highlighter
        ((sys.locals call.highlighter).resolve parser library call.request s).1
        ((sys.locals call.highlighter).resolve parser library call.request s).2.1 := by
  rw [highlight]

end System

def afterAnswer (request : HighlightRequest) (answer : Except HighlightError HighlightResult) :
    Phase :=
  match verdict answer with
  | .use result => .done result
  | .stayLocal => .refused
  | .passThrough => .done (.plain request.code)

variable (parser : SyntaxParser σ) (library : ThemeLibrary) (calls : Nat → Call)

-- The system after an event; none if the event cannot happen now.
def step (sys : System) : Event σ → Option System
  | .trip => some sys.trip
  | .call id step =>
    match sys.phase id, step with
    | .idle, .check =>
      some (sys.enter id (if sys.breaker.remoteAvailable then .cleared else .staying))
    | .cleared, .issue => some (sys.enter id .waiting)
    | .waiting, .answer answer => some (sys.enter id (afterAnswer (calls id).request answer))
    | .refused, .trip => some (sys.trip.enter id .staying)
    | .staying, .highlight s => some (sys.highlight parser library id (calls id) s)
    | _, _ => none

def run (sys : System) (events : List (Event σ)) : Option System :=
  events.foldlM (step parser library calls) sys

-- The steps that a call takes.
def stepsOf (id : Nat) (events : List (Event σ)) : List (Step σ) :=
  events.filterMap fun
    | .call other step => if other = id then some step else none
    | .trip => none

-- A single step of a call, as far as the call itself can tell. What it would highlight here is
-- the same whenever it does so.
inductive Moves (request : HighlightRequest) (here : σ → HighlightResult) :
    Phase → Step σ → Phase → Prop
  | clear : Moves request here .idle .check .cleared
  | stay : Moves request here .idle .check .staying
  | issue : Moves request here .cleared .issue .waiting
  | answer (answer) : Moves request here .waiting (.answer answer) (afterAnswer request answer)
  | trip : Moves request here .refused .trip .staying
  | highlight (s) : Moves request here .staying (.highlight s) (.done (here s))

-- The steps that take a call from one phase to another.
inductive Course (request : HighlightRequest) (here : σ → HighlightResult) :
    Phase → List (Step σ) → Phase → Prop
  | stop (phase) : Course request here phase [] phase
  | move {phase step next steps last} (head : Moves request here phase step next)
    (rest : Course request here next steps last) :
    Course request here phase (step :: steps) last

variable {parser library calls} {sys sys' final : System} {event : Event σ}
  {events before after : List (Event σ)} {locals : Nat → LocalHighlighter} {id : Nat}

-- All that a step of a call can be and do.
theorem step_call_cases {st : Step σ}
    (h : step parser library calls sys (.call id st) = some sys') :
    st = .check ∧ sys.phase id = .idle ∧
        sys' = sys.enter id (if sys.breaker.remoteAvailable then .cleared else .staying) ∨
      st = .issue ∧ sys.phase id = .cleared ∧ sys' = sys.enter id .waiting ∨
      (∃ answer, st = .answer answer ∧ sys.phase id = .waiting ∧
        sys' = sys.enter id (afterAnswer (calls id).request answer)) ∨
      st = .trip ∧ sys.phase id = .refused ∧ sys' = sys.trip.enter id .staying ∨
      ∃ s, st = .highlight s ∧ sys.phase id = .staying ∧
        sys' = sys.settle id (calls id).highlighter
          ((sys.locals (calls id).highlighter).resolve parser library (calls id).request s).1
          ((sys.locals (calls id).highlighter).resolve parser library (calls id).request
            s).2.1 := by
  unfold step at h
  simp only at h
  split at h
  · exact .inl ⟨rfl, ‹_›, (Option.some.inj h).symm⟩
  · exact .inr (.inl ⟨rfl, ‹_›, (Option.some.inj h).symm⟩)
  · exact .inr (.inr (.inl ⟨_, rfl, ‹_›, (Option.some.inj h).symm⟩))
  · exact .inr (.inr (.inr (.inl ⟨rfl, ‹_›, (Option.some.inj h).symm⟩)))
  · rw [System.highlight_eq] at h
    exact .inr (.inr (.inr (.inr ⟨_, rfl, ‹_›, (Option.some.inj h).symm⟩)))
  · cases h

theorem step_check (hp : sys.phase id = .idle) :
    step parser library calls sys (.call id .check) =
      some (sys.enter id (if sys.breaker.remoteAvailable then .cleared else .staying)) := by
  rw [step]
  exact hp

theorem step_issue (hp : sys.phase id = .cleared) :
    step parser library calls sys (.call id .issue) = some (sys.enter id .waiting) := by
  rw [step]
  exact hp

theorem step_answer (hp : sys.phase id = .waiting)
    (answer : Except HighlightError HighlightResult) :
    step parser library calls sys (.call id (.answer answer)) =
      some (sys.enter id (afterAnswer (calls id).request answer)) := by
  rw [step]
  exact hp

theorem step_trip (hp : sys.phase id = .refused) :
    step parser library calls sys (.call id .trip) = some (sys.trip.enter id .staying) := by
  rw [step]
  exact hp

theorem step_highlight (hp : sys.phase id = .staying) (s : σ) :
    step parser library calls sys (.call id (.highlight s)) =
      some (sys.highlight parser library id (calls id) s) := by
  rw [step]
  exact hp

theorem of_step_check (h : step parser library calls sys (.call id .check) = some sys') :
    sys.phase id = .idle ∧
      sys' = sys.enter id (if sys.breaker.remoteAvailable then .cleared else .staying) := by
  cases hp : sys.phase id with
  | idle =>
    rw [step_check hp] at h
    exact ⟨rfl, (Option.some.inj h).symm⟩
  | _ => simp [step, hp] at h

theorem of_step_trip (h : step parser library calls sys (.call id .trip) = some sys') :
    sys.phase id = .refused ∧ sys' = sys.trip.enter id .staying := by
  cases hp : sys.phase id with
  | refused =>
    rw [step_trip hp] at h
    exact ⟨rfl, (Option.some.inj h).symm⟩
  | _ => simp [step, hp] at h

-- A call is never stuck, whatever the other calls have done and whatever the service answers.
theorem exists_step (parser : SyntaxParser σ) (library : ThemeLibrary) (calls : Nat → Call)
    (sys : System) (id : Nat) (answer : Except HighlightError HighlightResult) (s : σ) :
    (∃ result, sys.phase id = .done result) ∨
      ∃ st ∈ [.check, .issue, .answer answer, .trip, .highlight s], ∃ sys',
        step parser library calls sys (.call id st) = some sys' := by
  cases hp : sys.phase id with
  | idle => exact .inr ⟨.check, by simp, _, step_check hp⟩
  | cleared => exact .inr ⟨.issue, by simp, _, step_issue hp⟩
  | waiting => exact .inr ⟨.answer answer, by simp, _, step_answer hp answer⟩
  | refused => exact .inr ⟨.trip, by simp, _, step_trip hp⟩
  | staying => exact .inr ⟨.highlight s, by simp, _, step_highlight hp s⟩
  | done result => exact .inl ⟨result, rfl⟩

theorem run_append :
    run parser library calls sys (before ++ after) =
      (run parser library calls sys before).bind fun mid => run parser library calls mid after :=
  List.foldlM_append

theorem exists_of_run_append
    (h : run parser library calls sys (before ++ after) = some final) :
    ∃ mid, run parser library calls sys before = some mid ∧
      run parser library calls mid after = some final := by
  rw [run_append] at h
  exact Option.bind_eq_some_iff.mp h

theorem exists_of_run_cons
    (h : run parser library calls sys (event :: events) = some final) :
    ∃ mid, step parser library calls sys event = some mid ∧
      run parser library calls mid events = some final :=
  Option.bind_eq_some_iff.mp h

theorem exists_of_run_split
    (h : run parser library calls sys (before ++ event :: after) = some final) :
    ∃ mid next, run parser library calls sys before = some mid ∧
      step parser library calls mid event = some next ∧
      run parser library calls next after = some final := by
  obtain ⟨mid, hbefore, hrest⟩ := exists_of_run_append h
  obtain ⟨next, hstep, hafter⟩ := exists_of_run_cons hrest
  exact ⟨mid, next, hbefore, hstep, hafter⟩

theorem run_cons (h : step parser library calls sys event = some sys') :
    run parser library calls sys (event :: events) = run parser library calls sys' events := by
  rw [run, List.foldlM_cons, h]
  rfl

section Call

variable {request : HighlightRequest} {here : σ → HighlightResult} {steps more : List (Step σ)}
  {phase mid last : Phase}

theorem Course.append (h : Course request here phase steps mid)
    (hmore : Course request here mid more last) :
    Course request here phase (steps ++ more) last := by
  induction h with
  | stop => exact hmore
  | move head _ ih => exact .move head (ih hmore)

theorem Course.single {step : Step σ} (h : Moves request here phase step last) :
    Course request here phase [step] last :=
  .move h (.stop last)

end Call

theorem stepsOf_append (id : Nat) (before after : List (Event σ)) :
    stepsOf id (before ++ after) = stepsOf id before ++ stepsOf id after :=
  List.filterMap_append

theorem stepsOf_self (id : Nat) (step : Step σ) : stepsOf id [.call id step] = [step] := by
  simp [stepsOf]

theorem stepsOf_of_ne {other : Nat} (hne : other ≠ id) (step : Step σ) :
    stepsOf id [.call other step] = [] := by
  simp [stepsOf, hne]

theorem faithful_of_step (hf : ∀ n, (sys.locals n).Faithful library)
    (h : step parser library calls sys event = some sys') (n : Nat) :
    (sys'.locals n).Faithful library := by
  cases event with
  | trip =>
    obtain rfl := Option.some.inj h
    exact hf n
  | call id st =>
    obtain ⟨-, -, rfl⟩ | ⟨-, -, rfl⟩ | ⟨answer, -, -, rfl⟩ | ⟨-, -, rfl⟩ | ⟨s, -, -, rfl⟩ :=
      step_call_cases h
    · exact hf n
    · exact hf n
    · exact hf n
    · exact hf n
    · rw [System.locals_settle]
      by_cases hn : n = (calls id).highlighter
      · subst hn
        rw [Function.update_self]
        exact (hf _).resolve parser _ s
      · rw [Function.update_of_ne hn]
        exact hf n

theorem faithful_of_run (hf : ∀ n, (sys.locals n).Faithful library)
    (h : run parser library calls sys events = some final) (n : Nat) :
    (final.locals n).Faithful library := by
  induction events generalizing sys with
  | nil =>
    obtain rfl : sys = final := Option.some.inj h
    exact hf n
  | cons event events ih =>
    obtain ⟨mid, hstep, hrun⟩ := exists_of_run_cons h
    exact ih (faithful_of_step hf hstep) hrun

-- A step of a call moves the call. What its local highlighter has kept makes no difference.
theorem moves_of_step {st : Step σ} (hl : ∀ n, (locals n).Faithful library)
    (hf : ∀ n, (sys.locals n).Faithful library)
    (h : step parser library calls sys (.call id st) = some sys') :
    Moves (calls id).request ((calls id).here parser library locals) (sys.phase id) st
      (sys'.phase id) := by
  obtain ⟨rfl, hp, rfl⟩ | ⟨rfl, hp, rfl⟩ | ⟨answer, rfl, hp, rfl⟩ | ⟨rfl, hp, rfl⟩ |
    ⟨s, rfl, hp, rfl⟩ := step_call_cases h
  · rw [hp, System.phase_enter_self]
    split
    · exact .clear
    · exact .stay
  · rw [hp, System.phase_enter_self]
    exact .issue
  · rw [hp, System.phase_enter_self]
    exact .answer answer
  · rw [hp, System.phase_enter_self]
    exact .trip
  · have hresult : ((sys.locals (calls id).highlighter).resolve parser library
        (calls id).request s).1 = (calls id).here parser library locals s := by
      rw [Call.here, LocalHighlighter.resolve_of_faithful (hf _),
        LocalHighlighter.resolve_of_faithful (hl _)]
    rw [hp, System.phase_settle_self, hresult]
    exact .highlight s

theorem phase_of_step_of_ne {st : Step σ} {other : Nat}
    (h : step parser library calls sys (.call other st) = some sys') (hne : id ≠ other) :
    sys'.phase id = sys.phase id := by
  obtain ⟨-, -, rfl⟩ | ⟨-, -, rfl⟩ | ⟨answer, -, -, rfl⟩ | ⟨-, -, rfl⟩ | ⟨s, -, -, rfl⟩ :=
    step_call_cases h
  · exact System.phase_enter_of_ne _ _ hne
  · exact System.phase_enter_of_ne _ _ hne
  · exact System.phase_enter_of_ne _ _ hne
  · exact System.phase_enter_of_ne _ _ hne
  · exact System.phase_settle_of_ne _ _ _ _ hne

-- What one event does to a call: nothing, unless it is a step of the call.
theorem course_of_step (hl : ∀ n, (locals n).Faithful library)
    (hf : ∀ n, (sys.locals n).Faithful library)
    (h : step parser library calls sys event = some sys') (id : Nat) :
    Course (calls id).request ((calls id).here parser library locals) (sys.phase id)
      (stepsOf id [event]) (sys'.phase id) := by
  cases event with
  | trip =>
    obtain rfl := Option.some.inj h
    exact .stop _
  | call other st =>
    by_cases hid : id = other
    · subst hid
      rw [stepsOf_self]
      exact .single (moves_of_step hl hf h)
    · rw [stepsOf_of_ne (Ne.symm hid), phase_of_step_of_ne h hid]
      exact .stop _

-- What a run does to a call: what the steps of the call do.
theorem course_of_run (hl : ∀ n, (locals n).Faithful library)
    (hf : ∀ n, (sys.locals n).Faithful library)
    (h : run parser library calls sys events = some final) (id : Nat) :
    Course (calls id).request ((calls id).here parser library locals) (sys.phase id)
      (stepsOf id events) (final.phase id) := by
  induction events generalizing sys with
  | nil =>
    obtain rfl : sys = final := Option.some.inj h
    exact .stop _
  | cons event events ih =>
    obtain ⟨mid, hstep, hrun⟩ := exists_of_run_cons h
    have hmid := faithful_of_step hf hstep
    rw [← List.singleton_append, stepsOf_append]
    exact (course_of_step hl hf hstep id).append (ih hmid hrun)

section Alone

variable {τ : Type}

-- The steps of a call that nothing comes between.
def ownSteps (h : DefaultHighlighter) (transport : Transport τ) (request : HighlightRequest)
    (s : σ) (t : τ) : List (Step σ) :=
  if h.breaker.remoteAvailable then
    let answer := (transport.fetch request t).1
    .check :: .issue :: .answer answer ::
      match verdict answer with
      | .stayLocal => [.trip, .highlight s]
      | _ => []
  else [.check, .highlight s]

theorem run_highlight {h : DefaultHighlighter} {s : σ}
    {resolved : HighlightResult × DefaultHighlighter × σ}
    (hr : h.resolveHere parser library (calls id).request s = resolved)
    (hh : sys.highlighter (calls id) = h) (hp : sys.phase id = .staying) :
    ∃ last, run parser library calls sys [.call id (.highlight s)] = some last ∧
      last.phase id = .done resolved.1 ∧ last.highlighter (calls id) = resolved.2.1 := by
  subst hh hr
  refine ⟨_, run_cons (step_highlight hp s), ?_⟩
  rw [System.highlight_eq, DefaultHighlighter.resolveHere, System.highlighter, System.highlighter]
  generalize (sys.locals (calls id).highlighter).resolve parser library (calls id).request s = here
  refine ⟨System.phase_settle_self .., ?_⟩
  rw [System.locals_settle, Function.update_self, System.breaker_settle]

-- A call that nothing comes between does what its highlighter does at once.
theorem run_ownSteps {h : DefaultHighlighter} (hh : sys.highlighter (calls id) = h)
    (hp : sys.phase id = .idle) (transport : Transport τ) (s : σ) (t : τ) :
    let resolved := h.resolve parser library transport (calls id).request s t
    ∃ last, run parser library calls sys
        ((ownSteps h transport (calls id).request s t).map (.call id)) = some last ∧
      last.phase id = .done resolved.1 ∧ last.highlighter (calls id) = resolved.2.1 := by
  have hb : sys.breaker = h.breaker := congrArg DefaultHighlighter.breaker hh
  unfold DefaultHighlighter.resolve ownSteps
  by_cases hav : h.breaker.remoteAvailable
  · generalize transport.fetch (calls id).request t = fetched
    obtain ⟨answer, after⟩ := fetched
    simp only [hav, if_true, List.map_cons]
    rw [run_cons (step_check hp), hb, if_pos hav,
      run_cons (step_issue (System.phase_enter_self ..)),
      run_cons (step_answer (System.phase_enter_self ..) answer), afterAnswer]
    cases verdict answer with
    | use result => exact ⟨_, rfl, System.phase_enter_self .., hh⟩
    | passThrough => exact ⟨_, rfl, System.phase_enter_self .., hh⟩
    | stayLocal =>
      rw [List.map_cons, List.map_singleton, run_cons (step_trip (System.phase_enter_self ..))]
      generalize hm : ((sys.enter id .cleared).enter id .waiting).enter id .refused = mid
      have hmid : mid.highlighter (calls id) = h := by
        rw [← hm, System.highlighter_enter, System.highlighter_enter, System.highlighter_enter, hh]
      have hstay : (mid.trip.enter id .staying).highlighter (calls id) =
          ⟨h.breaker.trip.2, h.localHighlighter⟩ := by
        rw [System.highlighter_enter, System.highlighter_trip, hmid]
      -- what is highlighted is named, for a comparison would evaluate it
      generalize hr : DefaultHighlighter.resolveHere parser library _ (calls id).request s = here
      exact run_highlight hr hstay (System.phase_enter_self ..)
  · simp only [hav, Bool.false_eq_true, if_false, List.map_cons]
    rw [run_cons (step_check hp), hb, if_neg hav]
    have hstay : (sys.enter id .staying).highlighter (calls id) = h := hh
    generalize hr : h.resolveHere parser library (calls id).request s = here
    exact run_highlight hr hstay (System.phase_enter_self ..)

end Alone

end SyntaxStream.Dispatch
