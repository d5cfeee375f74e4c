import SyntaxStream.Span

namespace SyntaxStream

-- What a highlight query reports: a node of the tree by its byte offsets, the number of the
-- pattern that matched it, and the name the pattern gives it.
structure RawCapture where
  start : Nat
  stop : Nat
  pattern : Nat
  name : String
deriving Repr, DecidableEq, Inhabited

namespace RawCapture

def overlaps (c : RawCapture) (w : Window) : Bool :=
  max c.start w.start < min c.stop w.stop

end RawCapture

-- A captured node together with the number of its highlight.
structure Capture where
  start : Nat
  stop : Nat
  pattern : Nat
  highlight : Nat
deriving Repr, DecidableEq, Inhabited

namespace Capture

def length (c : Capture) : Nat := c.stop - c.start

def covers (c : Capture) (offset : Nat) : Bool := c.start ≤ offset && offset < c.stop

def sameRange (a b : Capture) : Bool := a.start == b.start && a.stop == b.stop

-- A capture counts if its name has a highlight and its node is not empty.
def ofRaw? (c : RawCapture) : Option Capture :=
  if c.start < c.stop then
    (Scope.number? c.name).map fun highlight => ⟨c.start, c.stop, c.pattern, highlight⟩
  else
    none

-- The order of nodes in a text: by their start, the larger node first, and for one node by the
-- pattern.
def precedes (a b : Capture) : Bool :=
  a.start < b.start || (a.start == b.start &&
    (b.stop < a.stop || (a.stop == b.stop && a.pattern ≤ b.pattern)))

-- The first of neighbours with one range stays.
def firstOfRange : List Capture → List Capture
  | [] => []
  | c :: rest => c :: drop c rest
where
  drop (last : Capture) : List Capture → List Capture
    | [] => []
    | c :: rest => if c.sameRange last then drop last rest else c :: drop c rest

-- One capture for each node, in the order of nodes; of several the earliest pattern counts.
def ofRawList (raw : List RawCapture) : List Capture :=
  firstOfRange ((raw.filterMap ofRaw?).mergeSort precedes)

-- Innermost captures first: the shorter first, and of equal lengths the one later in the list.
def innermostFirst (captures : List Capture) : List Capture :=
  (captures.mergeSort fun a b => b.length ≤ a.length).reverse

end Capture

end SyntaxStream
