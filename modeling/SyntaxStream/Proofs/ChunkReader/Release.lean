import SyntaxStream.Proofs.ChunkReader.Channel
import Mathlib.Data.Prod.Basic

namespace SyntaxStream

-- What is in a bounded queue, and whether it takes more.
structure QueueContents where
  capacity : Nat
  queued : List String
  isOpen : Bool

namespace QueueContents

def send (q : QueueContents) (text : String) : Bool × QueueContents :=
  if q.isOpen && q.queued.length < q.capacity then
    (true, { q with queued := q.queued ++ [text] })
  else
    (false, q)

def receive (q : QueueContents) : ReadOutcome × QueueContents :=
  match q.queued with
  | text :: rest => (.chunk text, { q with queued := rest })
  | [] => (if q.isOpen then .pending else .ended, q)

def close (q : QueueContents) : QueueContents := { q with isOpen := false }

end QueueContents

-- A channel between a sender and a receiver, either of which can close it. No more is relied on
-- than that it keeps its chunks in the order in which they were sent, refuses one just if it is
-- full or closed, and loses nothing when it is closed.
class BoundedChannel (κ : Type) where
  contents : κ → QueueContents
  send : κ → String → Bool × κ
  receive : κ → ReadOutcome × κ
  dropSender : κ → κ
  close : κ → κ
  contents_send (channel : κ) (text : String) :
    (send channel text).map id contents = (contents channel).send text
  contents_receive (channel : κ) :
    (receive channel).map id contents = (contents channel).receive
  contents_dropSender (channel : κ) : contents (dropSender channel) = (contents channel).close
  contents_close (channel : κ) : contents (close channel) = (contents channel).close

instance : BoundedChannel QueueContents where
  contents := id
  send := QueueContents.send
  receive := QueueContents.receive
  dropSender := QueueContents.close
  close := QueueContents.close
  contents_send _ _ := rfl
  contents_receive _ := rfl
  contents_dropSender _ := rfl
  contents_close _ := rfl

namespace ChannelReader

def ofContents (q : QueueContents) (released : Bool) : ChannelReader :=
  ⟨q.capacity, q.queued, q.isOpen, released⟩

theorem send_ofContents (q : QueueContents) (released : Bool) (text : String) :
    (ofContents q released).send text = (q.send text).map id (ofContents · released) := by
  obtain ⟨capacity, queued, isOpen⟩ := q
  rw [ofContents, send, QueueContents.send]
  by_cases hroom : (isOpen && decide (queued.length < capacity)) = true
  · rw [if_pos hroom, if_pos hroom]
    rfl
  · rw [if_neg hroom, if_neg hroom]
    rfl

theorem read_ofContents (q : QueueContents) :
    (ofContents q false).read = q.receive.map id (ofContents · false) := by
  obtain ⟨capacity, queued, isOpen⟩ := q
  cases queued <;> rfl

end ChannelReader

-- A reader of any channel that can be locked. Its release does two things: it gives up the lock,
-- without which nothing is read, and it closes the channel, so that nothing is sent.
structure LockedReader (κ : Type) where
  channel : κ
  locked : Bool

namespace LockedReader

variable {κ : Type} [BoundedChannel κ]

def new (channel : κ) : LockedReader κ := ⟨channel, true⟩

def send (r : LockedReader κ) (text : String) : Bool × LockedReader κ :=
  (BoundedChannel.send r.channel text).map id fun channel => { r with channel }

def dropSender (r : LockedReader κ) : LockedReader κ :=
  { r with channel := BoundedChannel.dropSender r.channel }

def read (r : LockedReader κ) : ReadOutcome × LockedReader κ :=
  if r.locked then (BoundedChannel.receive r.channel).map id fun channel => { r with channel }
  else (.failed "reader lock released", r)

def release (r : LockedReader κ) : LockedReader κ := ⟨BoundedChannel.close r.channel, false⟩

-- The reader of a queue with the contents of the channel.
def plain (r : LockedReader κ) : ChannelReader :=
  .ofContents (BoundedChannel.contents r.channel) (!r.locked)

theorem plain_new {channel : κ} {capacity : Nat}
    (h : BoundedChannel.contents channel = ⟨capacity, [], true⟩) :
    (new channel).plain = ⟨capacity, [], true, false⟩ := by
  rw [plain, new, h]
  rfl

instance : SharedReader (LockedReader κ) := ⟨send, dropSender, read, release⟩

theorem plain_send (r : LockedReader κ) (text : String) :
    r.plain.send text = (r.send text).map id plain := by
  rw [plain, ChannelReader.send_ofContents, ← BoundedChannel.contents_send]
  rfl

theorem plain_read (r : LockedReader κ) : r.plain.read = r.read.map id plain := by
  rw [read]
  cases hlocked : r.locked with
  | true =>
    rw [plain, hlocked, if_pos rfl, Bool.not_true, ChannelReader.read_ofContents,
      ← BoundedChannel.contents_receive]
    simp only [Prod.map_map, Function.comp_def, plain]
    rfl
  | false =>
    rw [if_neg Bool.false_ne_true, ChannelReader.read_of_released]
    · rfl
    · rw [plain, hlocked]
      rfl

theorem plain_dropSender (r : LockedReader κ) : r.plain.close = r.dropSender.plain := by
  rw [plain, plain, dropSender, BoundedChannel.contents_dropSender]
  rfl

theorem plain_release (r : LockedReader κ) : r.plain.release = r.release.plain := by
  rw [plain, plain, release, BoundedChannel.contents_close]
  rfl

-- The reader of any channel answers as the one that has its chunks in a list.
theorem run_plain (r : LockedReader κ) (steps : List SharedReader.Step) :
    SharedReader.run r.plain steps = (SharedReader.run r steps).map id plain := by
  apply SharedReader.run_map
  intro reader s
  cases s with
  | send text =>
    simp only [SharedReader.step]
    rw [show SharedReader.send reader.plain text = _ from plain_send reader text]
    rfl
  | dropSender => exact Prod.ext rfl (plain_dropSender reader)
  | read =>
    simp only [SharedReader.step]
    rw [show SharedReader.read reader.plain = _ from plain_read reader]
    rfl
  | release => exact Prod.ext rfl (plain_release reader)

end LockedReader

def StreamItem.ofResult : Except String String → StreamItem
  | .ok text => .chunk text
  | .error reason => .failure reason

def ReadOutcome.ofResult : Except String String → ReadOutcome
  | .ok text => .chunk text
  | .error reason => .failed reason

namespace StreamReader

inductive Step where
  | read
  | release
deriving DecidableEq

-- A stream of chunks and of reads that fail.
def ofResults (items : List (Except String String)) : StreamReader :=
  ⟨items.map .ofResult, false⟩

-- What the reads among some steps come to.
def run : StreamReader → List Step → List ReadOutcome
  | _, [] => []
  | r, .read :: rest => r.read.1 :: run r.read.2 rest
  | r, .release :: rest => run r.release rest

theorem run_of_released {r : StreamReader} (h : r.released = true) (steps : List Step) :
    r.run steps = List.replicate (steps.count .read) (.failed "reader lock released") := by
  induction steps generalizing r with
  | nil => rfl
  | cons s rest ih =>
    cases s with
    | read =>
      have hread : r.read = (.failed "reader lock released", r) := if_pos h
      rw [run, hread, ih h, List.count_cons_self, List.replicate_succ]
    | release =>
      rw [run, ih rfl, List.count_cons_of_ne (by decide)]

theorem read_ofResults_cons (item : Except String String) (items : List (Except String String)) :
    (ofResults (item :: items)).read = (.ofResult item, ofResults items) := by
  cases item <;> rfl

-- Up to the release each read takes the next item, be it a chunk or an error, and behind the last
-- one there is nothing more. From then on no read takes anything.
theorem run_ofResults (items : List (Except String String)) (steps : List Step) :
    let before := (steps.takeWhile (· != .release)).length
    (ofResults items).run steps =
      (items.map ReadOutcome.ofResult).take before ++
        List.replicate (before - items.length) .ended ++
        List.replicate ((steps.drop before).count .read) (.failed "reader lock released") := by
  induction steps generalizing items with
  | nil => simp [run]
  | cons s rest ih =>
    cases s with
    | release =>
      rw [run, run_of_released rfl]
      simp
    | read =>
      rw [List.takeWhile_cons_of_pos (by decide)]
      simp only [List.length_cons, List.drop_succ_cons]
      cases items with
      | nil =>
        have hread : (ofResults []).read = (.ended, ofResults []) := rfl
        rw [run, hread, ih]
        simp [List.replicate_succ]
      | cons item items =>
        rw [run, read_ofResults_cons, ih]
        simp

end StreamReader

namespace ChunkReader

open BoundedChannel SharedReader

-- Whatever channel a reader has, and in whichever order sender and reader go on, what has been read
-- is the first part of what was let into the channel, and the rest is still there. The release
-- ends it on both sides at once, and a stream in the place of the channel is read in the same way.
theorem read_in_order_until_released {κ : Type} [BoundedChannel κ] (channel : κ) (capacity : Nat)
    (hfresh : contents channel = ⟨capacity, [], true⟩) :
    (∀ steps : List SharedReader.Step,
      let events := (run (LockedReader.new channel) steps).1
      let reader := (run (LockedReader.new channel) steps).2
      let queued := (contents reader.channel).queued
      accepted events = received events ++ queued ∧
      received events <+: accepted events ∧
      (.release ∉ steps →
        (∀ text, reader.read.1 = .chunk text ↔ queued.head? = some text) ∧
        (reader.read.1 = .ended ↔ .dropSender ∈ steps ∧ received events = accepted events) ∧
        (reader.read.1 = .pending ↔ .dropSender ∉ steps ∧ queued = [])) ∧
      (.release ∈ steps →
        reader.read.1 = .failed "reader lock released" ∧ ∀ text, (reader.send text).1 = false) ∧
      run (ChannelReader.mk capacity [] true false) steps = (events, reader.plain)) ∧
    ∀ (items : List (Except String String)) (steps : List StreamReader.Step),
      let before := (steps.takeWhile (· != .release)).length
      (StreamReader.ofResults items).run steps =
        (items.map ReadOutcome.ofResult).take before ++
          List.replicate (before - items.length) .ended ++
          List.replicate ((steps.drop before).count .read) (.failed "reader lock released") := by
  refine ⟨fun steps => ?_, StreamReader.run_ofResults⟩
  intro events reader queued
  have hrun : run (ChannelReader.mk capacity [] true false) steps = (events, reader.plain) :=
    LockedReader.plain_new hfresh ▸ LockedReader.run_plain (LockedReader.new channel) steps
  have hread : reader.plain.read.1 = reader.read.1 := by
    rw [LockedReader.plain_read]
    rfl
  have hsend (text : String) : (reader.plain.send text).1 = (reader.send text).1 := by
    rw [LockedReader.plain_send]
    rfl
  have hqueue : accepted events = received events ++ queued := by
    have h := ChannelReader.queue_run ⟨capacity, [], true, false⟩ steps
    rw [hrun] at h
    exact h
  refine ⟨hqueue, hqueue ▸ List.prefix_append _ _, fun hbefore => ?_, fun hafter => ?_, hrun⟩
  · have h := ChannelReader.read_before_release capacity hbefore
    rw [hrun] at h
    rw [← hread]
    exact h
  · have h := ChannelReader.shut_after_release ⟨capacity, [], true, false⟩ hafter
    rw [hrun] at h
    exact ⟨hread ▸ h.1, fun text => hsend text ▸ h.2 text⟩

theorem read_in_order_until_released_queued :
    let reader := LockedReader.new (QueueContents.mk 2 [] true)
    let sends : List SharedReader.Step := [.send "fn ", .send "main", .send "()", .read]
    let reading := (run reader sends).2
    let released := (run reader (sends ++ [.release])).2
    contents (QueueContents.mk 2 [] true) = ⟨2, [], true⟩ ∧
      (.release ∉ sends ∧ accepted (run reader sends).1 = ["fn ", "main"] ∧
        received (run reader sends).1 <+: ["fn ", "main"] ∧ reading.read.1 = .chunk "main") ∧
      (.release ∈ sends ++ [.release] ∧ (contents released.channel).queued = ["main"] ∧
        released.read.1 = .failed "reader lock released" ∧ (released.send "()").1 = false) ∧
      (StreamReader.ofResults [.ok "fn ", .error "connection reset", .ok "main", .ok "()"]).run
          [.read, .read, .read, .release, .read] =
        [.chunk "fn ", .failed "connection reset", .chunk "main",
          .failed "reader lock released"] := by
  intro reader sends reading released
  obtain ⟨hchannel, hstream⟩ := read_in_order_until_released (QueueContents.mk 2 [] true) 2 rfl
  have hsends := hchannel sends
  have hreleased := hchannel (sends ++ [.release])
  have hbefore : .release ∉ sends := by decide
  have hafter : .release ∈ sends ++ [.release] := by decide
  exact ⟨rfl, ⟨hbefore, rfl, hsends.2.1, ((hsends.2.2.1 hbefore).1 "main").mpr rfl⟩,
    ⟨hafter, rfl, (hreleased.2.2.2.1 hafter).1, (hreleased.2.2.2.1 hafter).2 "()"⟩,
    hstream [.ok "fn ", .error "connection reset", .ok "main", .ok "()"]
      [.read, .read, .read, .release, .read]⟩

end ChunkReader

end SyntaxStream
