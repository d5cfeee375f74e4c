import SyntaxStream.Highlight.Local
import SyntaxStream.Highlight.Remote

namespace SyntaxStream

-- Remembers that the remote service is absent.
structure CircuitBreaker where
  tripped : Bool
deriving Repr, DecidableEq, Inhabited

namespace CircuitBreaker

def closed : CircuitBreaker := ⟨false⟩

def remoteAvailable (b : CircuitBreaker) : Bool := !b.tripped

-- Trips the breaker for good. Tells whether this was the first time.
def trip (b : CircuitBreaker) : Bool × CircuitBreaker := (!b.tripped, ⟨true⟩)

end CircuitBreaker

namespace Dispatch

-- What the answer of the remote service leads to.
inductive Verdict where
  | use (result : HighlightResult)
  -- the service is absent: the breaker trips and the block is highlighted here
  | stayLocal
  | passThrough
deriving Inhabited

def verdict : Except HighlightError HighlightResult → Verdict
  | .ok result => .use result
  | .error reason => if reason.isUnavailable then .stayLocal else .passThrough

end Dispatch

-- Asks a remote service first, until it is known to be absent.
structure DefaultHighlighter where
  breaker : CircuitBreaker
  localHighlighter : LocalHighlighter
deriving Repr, Inhabited

namespace DefaultHighlighter

def fresh : DefaultHighlighter := ⟨.closed, .fresh⟩

variable {σ τ : Type}

def resolveHere (parser : SyntaxParser σ) (library : ThemeLibrary) (h : DefaultHighlighter)
    (request : HighlightRequest) (s : σ) : HighlightResult × DefaultHighlighter × σ :=
  let (result, lh, s) := h.localHighlighter.resolve parser library request s
  (result, { h with localHighlighter := lh }, s)

def resolve (parser : SyntaxParser σ) (library : ThemeLibrary) (transport : Transport τ)
    (h : DefaultHighlighter) (request : HighlightRequest) (s : σ) (t : τ) :
    HighlightResult × DefaultHighlighter × σ × τ :=
  if h.breaker.remoteAvailable then
    let (answer, t) := transport.fetch request t
    match Dispatch.verdict answer with
    | .use result => (result, h, s, t)
    | .stayLocal =>
      let (result, h, s) :=
        resolveHere parser library { h with breaker := h.breaker.trip.2 } request s
      (result, h, s, t)
    | .passThrough => (.plain request.code, h, s, t)
  else
    let (result, h, s) := resolveHere parser library h request s
    (result, h, s, t)

def describe (h : DefaultHighlighter) : String :=
  "DefaultHighlighter \x7b remote_available: " ++ toString h.breaker.remoteAvailable ++ " \x7d"

end DefaultHighlighter

end SyntaxStream
