import SyntaxStream.Color
import SyntaxStream.Span

namespace SyntaxStream

-- A piece of text ready to be shown, with the byte offset at which it starts.
structure Token where
  content : String
  offset : Nat
  scope : Option String
  color : Option Color
deriving Repr, DecidableEq, Inhabited

-- One unit of output: tokens to append, or how many of the latest tokens to take back.
inductive Batch where
  | tokens (added : List Token)
  | retract (count : Nat)
deriving Repr, DecidableEq, Inhabited

namespace Batch

def isRetraction : Batch → Bool
  | retract _ => true
  | tokens _ => false

end Batch

-- What a consumer holds after applying batches: the live tokens, and how often it took some back.
structure TokenBuffer where
  tokens : List Token
  recalls : Nat
deriving Repr, DecidableEq, Inhabited

namespace TokenBuffer

def empty : TokenBuffer := ⟨[], 0⟩

-- Taking back more tokens than there are takes all of them.
def apply (buffer : TokenBuffer) : Batch → TokenBuffer
  | .tokens added => { buffer with tokens := buffer.tokens ++ added }
  | .retract count =>
    { tokens := buffer.tokens.take (buffer.tokens.length - count), recalls := buffer.recalls + 1 }

def applyAll (buffer : TokenBuffer) (batches : List Batch) : TokenBuffer :=
  batches.foldl apply buffer

def text (buffer : TokenBuffer) : String :=
  String.join (buffer.tokens.map (·.content))

end TokenBuffer

structure Snapshot where
  tokens : Nat
  recalls : Nat
  bytes : Nat
deriving Repr, DecidableEq

namespace Snapshot

def ofBuffer (buffer : TokenBuffer) : Snapshot where
  tokens := buffer.tokens.length
  recalls := buffer.recalls
  bytes := buffer.tokens.foldl (fun n token => n + token.content.utf8ByteSize) 0

private def change (label : String) (old new : Nat) : List String :=
  if old == new then [] else [label ++ ": " ++ toString old ++ " → " ++ toString new]

-- What changed from one snapshot to a later one, none when nothing did.
def diff (old new : Snapshot) : Option String :=
  let changes := change "recalls" old.recalls new.recalls ++
    change "tokens" old.tokens new.tokens ++ change "bytes" old.bytes new.bytes
  if changes.isEmpty then none else some ("; ".intercalate changes)

private theorem change_eq_nil_iff {label : String} {old new : Nat} :
    change label old new = [] ↔ old = new := by
  simp [change]

theorem diff_eq_none_iff {old new : Snapshot} : old.diff new = none ↔ old = new := by
  have hfields : old = new ↔
      old.recalls = new.recalls ∧ old.tokens = new.tokens ∧ old.bytes = new.bytes := by
    cases old
    cases new
    simp only [mk.injEq, and_left_comm]
  rw [hfields, diff]
  simp [change_eq_nil_iff]

end Snapshot

end SyntaxStream
