import SyntaxStream.Token

namespace SyntaxStream.TokenBuffer

variable {buffer : TokenBuffer} {batch : Batch} {xs ys : List Batch}

theorem applyAll_append (buffer : TokenBuffer) (xs ys : List Batch) :
    buffer.applyAll (xs ++ ys) = (buffer.applyAll xs).applyAll ys :=
  List.foldl_append

-- Every retraction takes back at least one token, and never more than the buffer then holds.
def RetractsFit (buffer : TokenBuffer) : List Batch → Prop
  | [] => True
  | batch :: rest =>
      (∀ n, batch = .retract n → 1 ≤ n ∧ n ≤ buffer.tokens.length) ∧
        RetractsFit (buffer.apply batch) rest

theorem RetractsFit.append (hx : RetractsFit buffer xs) (hy : RetractsFit (buffer.applyAll xs) ys) :
    RetractsFit buffer (xs ++ ys) := by
  induction xs generalizing buffer with
  | nil => exact hy
  | cons batch xs ih => exact ⟨hx.1, ih hx.2 hy⟩

end SyntaxStream.TokenBuffer
