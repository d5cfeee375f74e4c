import SyntaxStream.Transform

namespace SyntaxStream

-- A source from which chunks are taken one at a time. Only finitely many come from it before it
-- answers that there are no more; what it answers behind that is left open.
class ChunkIterator (ι : Type) where
  next : ι → Option String × ι
  -- how many chunks may still come
  left : ι → Nat
  left_next_lt {chunks chunks' : ι} {chunk : String} :
    next chunks = (some chunk, chunks') → left chunks' < left chunks

instance : ChunkIterator (List String) where
  next
    | [] => (none, [])
    | chunk :: chunks => (some chunk, chunks)
  left := List.length
  left_next_lt {chunks _ _} h := by
    cases chunks with
    | nil => simp at h
    | cons first rest =>
      obtain ⟨-, rfl⟩ := Prod.mk.inj h
      exact Nat.lt_succ_self _

-- The batches of a source of chunks, one at a time. A chunk is taken only when no earlier batch is
-- waiting, and the end of the chunks flushes the transform once.
structure BatchStream (ι : Type) where
  transform : Transform
  chunks : ι
  pending : List Batch
  exhausted : Bool
deriving Repr, Inhabited

namespace BatchStream

variable {σ ι : Type}

def ofChunks (transform : Transform) (chunks : ι) : BatchStream ι :=
  ⟨transform, chunks, [], false⟩

variable [ChunkIterator ι]

-- The next batch, none once everything has been given.
def next (parser : SyntaxParser σ) (stream : BatchStream ι) (s : σ) :
    Option Batch × BatchStream ι × σ :=
  match stream.pending with
  | batch :: pending => (some batch, { stream with pending }, s)
  | [] =>
    if _hopen : stream.exhausted then
      (none, stream, s)
    else match _h : ChunkIterator.next stream.chunks with
      | (some chunk, chunks) =>
        let (pending, transform, s) := stream.transform.push parser chunk s
        next parser ⟨transform, chunks, pending, false⟩ s
      | (none, chunks) =>
        let (pending, transform, s) := stream.transform.flush parser s
        next parser ⟨transform, chunks, pending, true⟩ s
termination_by if stream.exhausted then 0 else ChunkIterator.left stream.chunks + 1
decreasing_by
  · have hlt := ChunkIterator.left_next_lt _h
    simp only [_hopen, Bool.false_eq_true, if_false]
    omega
  · simp [_hopen]

end BatchStream

end SyntaxStream
