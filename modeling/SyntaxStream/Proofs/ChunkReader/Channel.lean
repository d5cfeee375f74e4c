import SyntaxStream.ChunkReader

namespace SyntaxStream

-- A reader and the sender of its channel: what can be done with the two.
class SharedReader (ρ : Type) where
  send : ρ → String → Bool × ρ
  dropSender : ρ → ρ
  read : ρ → ReadOutcome × ρ
  release : ρ → ρ

namespace SharedReader

inductive Step where
  | send (text : String)
  | dropSender
  | read
  | release
deriving DecidableEq

-- A step with what it has come to.
inductive Event where
  | sent (text : String) (accepted : Bool)
  | senderDropped
  | read (outcome : ReadOutcome)
  | released

def Event.accepted? : Event → Option String
  | sent text true => some text
  | _ => none

def Event.received? : Event → Option String
  | read outcome => outcome.chunk?
  | _ => none

-- The chunks that were let into the channel, and those that were read.
def accepted (events : List Event) : List String := events.filterMap Event.accepted?

def received (events : List Event) : List String := events.filterMap Event.received?

theorem accepted_cons (event : Event) (events : List Event) :
    accepted (event :: events) = accepted [event] ++ accepted events :=
  List.filterMap_append (l := [event])

theorem received_cons (event : Event) (events : List Event) :
    received (event :: events) = received [event] ++ received events :=
  List.filterMap_append (l := [event])

variable {ρ ρ' : Type} [SharedReader ρ] [SharedReader ρ']

def step (reader : ρ) : Step → Event × ρ
  | .send text => (send reader text).map (Event.sent text) id
  | .dropSender => (.senderDropped, dropSender reader)
  | .read => (read reader).map Event.read id
  | .release => (.released, release reader)

-- The steps of the sender and those of the reader in one order, whichever that is.
def run : ρ → List Step → List Event × ρ
  | reader, [] => ([], reader)
  | reader, s :: rest =>
    let (event, reader) := step reader s
    let (events, reader) := run reader rest
    (event :: events, reader)

theorem run_cons (reader : ρ) (s : Step) (rest : List Step) :
    run reader (s :: rest) =
      ((step reader s).1 :: (run (step reader s).2 rest).1, (run (step reader s).2 rest).2) := rfl

-- Two readers of which one is the image of the other answer alike.
theorem run_map {f : ρ → ρ'}
    (h : ∀ reader s, step (f reader) s = (step reader s).map id f) (reader : ρ)
    (steps : List Step) : run (f reader) steps = (run reader steps).map id f := by
  induction steps generalizing reader with
  | nil => rfl
  | cons s rest ih =>
    rw [run_cons, run_cons, h]
    simp only [Prod.map_fst, Prod.map_snd, ih]
    rfl

end SharedReader

instance : SharedReader ChannelReader :=
  ⟨ChannelReader.send, ChannelReader.close, ChannelReader.read, ChannelReader.release⟩

namespace ChannelReader

open SharedReader

variable {r : ChannelReader}

-- A step moves a chunk into the queue at its end, or from its front to the reader, or neither.
theorem queue_step (r : ChannelReader) (s : Step) :
    r.queue ++ accepted [(step r s).1] = received [(step r s).1] ++ (step r s).2.queue := by
  obtain ⟨capacity, queue, isOpen, released⟩ := r
  cases s with
  | dropSender => exact List.append_nil queue
  | release => exact List.append_nil queue
  | read =>
    cases released with
    | true => exact List.append_nil queue
    | false =>
      cases queue with
      | nil => cases isOpen <;> rfl
      | cons text rest => exact List.append_nil (text :: rest)
  | send text =>
    by_cases hroom : (isOpen && decide (queue.length < capacity)) = true
    · have hsend : SharedReader.send (ChannelReader.mk capacity queue isOpen released) text =
          (true, ⟨capacity, queue ++ [text], isOpen, released⟩) := if_pos hroom
      rw [step, hsend]
      rfl
    · have hsend : SharedReader.send (ChannelReader.mk capacity queue isOpen released) text =
          (false, ⟨capacity, queue, isOpen, released⟩) := if_neg hroom
      rw [step, hsend]
      exact List.append_nil queue

-- Nothing is lost, doubled or put out of order between the sender and the reader.
theorem queue_run (r : ChannelReader) (steps : List Step) :
    r.queue ++ accepted (run r steps).1 = received (run r steps).1 ++ (run r steps).2.queue := by
  induction steps generalizing r with
  | nil => exact List.append_nil r.queue
  | cons s rest ih =>
    rw [run_cons, accepted_cons, received_cons, ← List.append_assoc, queue_step, List.append_assoc,
      ih, List.append_assoc]

theorem flags_send (r : ChannelReader) (text : String) :
    (r.send text).2.isOpen = r.isOpen ∧ (r.send text).2.released = r.released := by
  rw [send]
  split <;> exact ⟨rfl, rfl⟩

theorem flags_read (r : ChannelReader) :
    r.read.2.isOpen = r.isOpen ∧ r.read.2.released = r.released := by
  rw [read]
  split
  · exact ⟨rfl, rfl⟩
  · split <;> exact ⟨rfl, rfl⟩

theorem isOpen_step (r : ChannelReader) (s : Step) :
    (step r s).2.isOpen = true ↔ r.isOpen = true ∧ s ≠ .dropSender ∧ s ≠ .release := by
  cases s with
  | send text => exact (Bool.eq_iff_iff.mp (flags_send r text).1).trans (by simp)
  | read => exact (Bool.eq_iff_iff.mp (flags_read r).1).trans (by simp)
  | dropSender => simp [step, SharedReader.dropSender, close]
  | release => simp [step, SharedReader.release, release]

theorem released_step (r : ChannelReader) (s : Step) :
    (step r s).2.released = true ↔ r.released = true ∨ s = .release := by
  cases s with
  | send text => exact (Bool.eq_iff_iff.mp (flags_send r text).2).trans (by simp)
  | read => exact (Bool.eq_iff_iff.mp (flags_read r).2).trans (by simp)
  | dropSender => simp [step, SharedReader.dropSender, close]
  | release => simp [step, SharedReader.release, release]

theorem isOpen_run (r : ChannelReader) (steps : List Step) :
    (run r steps).2.isOpen = true ↔
      r.isOpen = true ∧ .dropSender ∉ steps ∧ .release ∉ steps := by
  induction steps generalizing r with
  | nil => simp [run]
  | cons s rest ih =>
    rw [run_cons, ih, isOpen_step, List.mem_cons, List.mem_cons]
    grind

theorem released_run (r : ChannelReader) (steps : List Step) :
    (run r steps).2.released = true ↔ r.released = true ∨ .release ∈ steps := by
  induction steps generalizing r with
  | nil => simp [run]
  | cons s rest ih => rw [run_cons, ih, released_step, List.mem_cons, or_assoc, eq_comm (a := s)]

-- What a reader that has not been released answers tells what is in the queue.
theorem read_cases (hr : r.released = false) :
    (∀ text, r.read.1 = .chunk text ↔ r.queue.head? = some text) ∧
      (r.read.1 = .ended ↔ r.queue = [] ∧ r.isOpen = false) ∧
      (r.read.1 = .pending ↔ r.queue = [] ∧ r.isOpen = true) := by
  obtain ⟨capacity, queue, isOpen, released⟩ := r
  obtain rfl : released = false := hr
  cases queue with
  | nil => cases isOpen <;> simp [read]
  | cons text rest => simp [read]

theorem read_of_released (h : r.released = true) :
    r.read = (.failed "reader lock released", r) := by
  rw [read, if_pos h]

theorem send_of_closed (h : r.isOpen = false) (text : String) : r.send text = (false, r) := by
  rw [send, h]
  rfl

-- Until the release it depends on the sender and on what is still queued how a read goes. There is
-- an end only behind the last chunk that was let in.
theorem read_before_release (capacity : Nat) {steps : List Step} (h : .release ∉ steps) :
    let reached := run (ChannelReader.mk capacity [] true false) steps
    (∀ text, reached.2.read.1 = .chunk text ↔ reached.2.queue.head? = some text) ∧
      (reached.2.read.1 = .ended ↔
        .dropSender ∈ steps ∧ received reached.1 = accepted reached.1) ∧
      (reached.2.read.1 = .pending ↔ .dropSender ∉ steps ∧ reached.2.queue = []) := by
  intro reached
  have hqueue : accepted reached.1 = received reached.1 ++ reached.2.queue :=
    queue_run ⟨capacity, [], true, false⟩ steps
  have hopen : reached.2.isOpen = true ↔ .dropSender ∉ steps := by
    rw [isOpen_run]
    simp [h]
  have hclosed : reached.2.isOpen = false ↔ .dropSender ∈ steps := by
    rw [← Bool.not_eq_true, hopen, Decidable.not_not]
  have hlocked : reached.2.released = false := by
    rw [← Bool.not_eq_true, released_run]
    simp [h]
  obtain ⟨hchunk, hended, hpending⟩ := read_cases hlocked
  refine ⟨hchunk, ?_, ?_⟩
  · rw [hended, hclosed, hqueue, List.self_eq_append_right, and_comm]
  · rw [hpending, hopen, and_comm]

-- Behind the release both sides are shut, and whatever is queued stays there.
theorem shut_after_release (r : ChannelReader) {steps : List Step} (h : .release ∈ steps) :
    (run r steps).2.read.1 = .failed "reader lock released" ∧
      ∀ text, ((run r steps).2.send text).1 = false := by
  have hreleased : (run r steps).2.released = true := (released_run r steps).mpr (.inr h)
  have hclosed : (run r steps).2.isOpen = false := by
    rw [← Bool.not_eq_true, isOpen_run]
    exact fun hopen => hopen.2.2 h
  exact ⟨congrArg Prod.fst (read_of_released hreleased),
    fun text => congrArg Prod.fst (send_of_closed hclosed text)⟩

end ChannelReader

end SyntaxStream
