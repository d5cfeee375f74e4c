import SyntaxStream.Json.Document

namespace SyntaxStream.Json

-- Why a document cannot be read as something: its text is malformed, or it holds something else.
inductive Fault where
  | malformed
  | mismatch
deriving Repr, DecidableEq, Inhabited

namespace Document

mutual

-- Whether the text breaks off within a document.
def breaksOff : Document → Bool
  | .broken => true
  | .array items => itemsBreakOff items
  | .object entries => entriesBreakOff entries
  | _ => false

def itemsBreakOff : List Document → Bool
  | [] => false
  | item :: rest => item.breaksOff || itemsBreakOff rest

def entriesBreakOff : List (String × Document) → Bool
  | [] => false
  | (_, value) :: rest => value.breaksOff || entriesBreakOff rest

end

-- The fault of a document of the wrong kind. What is malformed at its place is that first.
def unexpected {α : Type} : Document → Except Fault α
  | .broken => .error .malformed
  | .invalid => .error .malformed
  | _ => .error .mismatch

def ignore (d : Document) : Except Fault Unit :=
  if d.breaksOff then .error .malformed else .ok ()

mutual

-- The value of a document. Objects are put in the order of their keys, and of several entries
-- with one key the last one counts.
def value : Document → Except Fault Json
  | .null => .ok .null
  | .bool b => .ok (.bool b)
  | .number n => .ok (.number n)
  | .string s => .ok (.string s)
  | .array items => do return .array (← itemValues items)
  | .object entries => do return .object (← entryValues entries).entries
  | .invalid => .error .malformed
  | .broken => .error .malformed

def itemValues : List Document → Except Fault (List Json)
  | [] => .ok []
  | item :: rest => do
    let first ← item.value
    return first :: (← itemValues rest)

def entryValues (entries : List (String × Document)) : Except Fault (Dict Json) :=
  addValues Dict.empty entries

def addValues (found : Dict Json) : List (String × Document) → Except Fault (Dict Json)
  | [] => .ok found
  | (key, d) :: rest => do
    let v ← d.value
    addValues (found.insert key v) rest

end

def asString : Document → Except Fault String
  | .string s => .ok s
  | d => d.unexpected

def asBool : Document → Except Fault Bool
  | .bool b => .ok b
  | d => d.unexpected

-- A natural number of 64 bits. A floating-point number is none, whatever its value.
def asNatural : Document → Except Fault Nat
  | .number (.integer n) => if 0 ≤ n then .ok n.toNat else .error .mismatch
  | d => d.unexpected

def asNaturals : List Document → Except Fault (List Nat)
  | [] => .ok []
  | d :: rest => do
    let n ← d.asNatural
    return n :: (← asNaturals rest)

def asNaturalList : Document → Except Fault (List Nat)
  | .array items => asNaturals items
  | d => d.unexpected

def asOption {α : Type} (f : Document → Except Fault α) : Document → Except Fault (Option α)
  | .null => .ok none
  | d => do return some (← f d)

end Document

-- Reads a document, to whose text nothing may be appended.
def decodeFrom {α : Type} (read : Document × Bool) (f : Document → Except Fault α) :
    Except Fault α := do
  let value ← f read.1
  if read.2 then return value else throw .malformed

def decode {α : Type} (f : Document → Except Fault α) (text : String) : Except Fault α :=
  decodeFrom (Document.ofText text) f

end SyntaxStream.Json
