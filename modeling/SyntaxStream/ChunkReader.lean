namespace SyntaxStream

-- What reading the next chunk comes to. A pending read may answer later.
inductive ReadOutcome where
  | chunk (text : String)
  | ended
  | failed (reason : String)
  | pending
deriving Repr, DecidableEq, Inhabited

namespace ReadOutcome

def chunk? : ReadOutcome → Option String
  | chunk text => some text
  | _ => none

end ReadOutcome

-- An element of a stream of chunks: a chunk, a read that fails, or a read that never answers.
inductive StreamItem where
  | chunk (text : String)
  | failure (reason : String)
  | never
deriving Repr, DecidableEq, Inhabited

-- The receiving end of a bounded queue. The queue is open until its sender goes away or the reader
-- is released; what is queued by then stays.
structure ChannelReader where
  capacity : Nat
  queue : List String
  isOpen : Bool
  released : Bool
deriving Repr, DecidableEq, Inhabited

namespace ChannelReader

-- Puts a chunk into the queue without waiting. It is refused when the queue is full or closed.
def send (r : ChannelReader) (text : String) : Bool × ChannelReader :=
  if r.isOpen && r.queue.length < r.capacity then
    (true, { r with queue := r.queue ++ [text] })
  else
    (false, r)

-- The sender goes away; what is queued can still be read.
def close (r : ChannelReader) : ChannelReader := { r with isOpen := false }

def read (r : ChannelReader) : ReadOutcome × ChannelReader :=
  if r.released then (.failed "reader lock released", r)
  else match r.queue with
    | text :: rest => (.chunk text, { r with queue := rest })
    | [] => (if r.isOpen then .pending else .ended, r)

-- A released reader reads no more. It closes the queue, so that nothing is sent to it either.
def release (r : ChannelReader) : ChannelReader := { r with isOpen := false, released := true }

end ChannelReader

-- A reader over a stream of chunks that may fail.
structure StreamReader where
  items : List StreamItem
  released : Bool
deriving Repr, DecidableEq, Inhabited

namespace StreamReader

-- A failing read uses up its element; a read that never answers stays where it is.
def read (r : StreamReader) : ReadOutcome × StreamReader :=
  if r.released then (.failed "reader lock released", r)
  else match r.items with
    | [] => (.ended, r)
    | .chunk text :: rest => (.chunk text, { r with items := rest })
    | .failure reason :: rest => (.failed reason, { r with items := rest })
    | .never :: _ => (.pending, r)

def release (r : StreamReader) : StreamReader := { r with released := true }

end StreamReader

inductive ChunkReader where
  | channel (reader : ChannelReader)
  | stream (reader : StreamReader)
deriving Repr, DecidableEq, Inhabited

namespace ChunkReader

def read : ChunkReader → ReadOutcome × ChunkReader
  | channel r => let (outcome, r) := r.read; (outcome, channel r)
  | stream r => let (outcome, r) := r.read; (outcome, stream r)

def release : ChunkReader → ChunkReader
  | channel r => channel r.release
  | stream r => stream r.release

def waiting : ChunkReader → Nat
  | channel r => r.queue.length
  | stream r => r.items.length

theorem waiting_read_lt {r r' : ChunkReader} {text : String}
    (h : r.read = (.chunk text, r')) : r'.waiting < r.waiting := by
  cases r with
  | channel r =>
    obtain ⟨capacity, queue, isOpen, released⟩ := r
    cases released with
    | true => simp [read, ChannelReader.read] at h
    | false =>
      cases queue with
      | nil => cases isOpen <;> simp [read, ChannelReader.read] at h
      | cons first rest =>
        simp only [read, ChannelReader.read, Bool.false_eq_true, if_false, Prod.mk.injEq] at h
        simp [← h.2, waiting]
  | stream r =>
    obtain ⟨items, released⟩ := r
    cases released with
    | true => simp [read, StreamReader.read] at h
    | false =>
      rcases items with _ | ⟨_ | _ | _, rest⟩
      · simp [read, StreamReader.read] at h
      · simp only [read, StreamReader.read, Bool.false_eq_true, if_false, Prod.mk.injEq] at h
        simp [← h.2, waiting]
      · simp [read, StreamReader.read] at h
      · simp [read, StreamReader.read] at h

end ChunkReader

-- A source of chunks of any kind, which can be read and released. However long it is read, only
-- finitely many chunks come from it.
class ChunkSource (ρ : Type) where
  read : ρ → ReadOutcome × ρ
  release : ρ → ρ
  -- how many chunks may still come
  waiting : ρ → Nat
  waiting_read_lt {r r' : ρ} {text : String} : read r = (.chunk text, r') → waiting r' < waiting r

instance : ChunkSource ChunkReader where
  read := ChunkReader.read
  release := ChunkReader.release
  waiting := ChunkReader.waiting
  waiting_read_lt := ChunkReader.waiting_read_lt

end SyntaxStream
