import SyntaxStream.Scope

namespace SyntaxStream

-- A stretch of a text, from the byte at start up to the byte at stop, with the number of at most
-- one highlight.
structure Span where
  start : Nat
  stop : Nat
  highlight : Option Nat
deriving Repr, DecidableEq, Inhabited

namespace Span

def length (s : Span) : Nat := s.stop - s.start

def isEmpty (s : Span) : Bool := s.start == s.stop

def scope (s : Span) : Option String := s.highlight.bind Scope.name?

end Span

-- A stretch of a text by its byte offsets.
structure Window where
  start : Nat
  stop : Nat
deriving Repr, DecidableEq, Inhabited

namespace Window

def isEmpty (w : Window) : Bool := w.stop ≤ w.start

def clampTo (w : Window) (size : Nat) : Window := ⟨min w.start size, min w.stop size⟩

end Window

end SyntaxStream
