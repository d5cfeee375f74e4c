import SyntaxStream.Capture
import SyntaxStream.Text.Cell

namespace SyntaxStream

namespace Segment

open Text

-- A byte of the window: where it is, what it is, and the innermost capture that covers it.
structure Painted where
  offset : Nat
  cell : Cell
  owner : Option Capture
deriving Repr, DecidableEq

namespace Painted

def isNewline (p : Painted) : Bool := p.cell.char == '\n'

-- Two neighbours belong together unless a character opens at the second one and the owner
-- changes or one of the two is a newline.
def joins (a b : Painted) : Bool :=
  !(b.cell.opens && (a.owner != b.owner || a.isNewline || b.isNewline))

end Painted

-- The owner of an offset is the first of the ranked captures that covers it.
def ownerAt (ranked : List Capture) (offset : Nat) : Option Capture :=
  ranked.find? (·.covers offset)

def painted (bytes : List Cell) (w : Window) (ranked : List Capture) : List Painted :=
  (between bytes w.start w.stop).zipIdx w.start |>.map fun (cell, offset) =>
    ⟨offset, cell, ownerAt ranked offset⟩

-- The span of a run of bytes. The first byte decides the highlight; a newline has none.
def spanOf? : List Painted → Option Span
  | [] => none
  | first :: rest =>
    some {
      start := first.offset
      stop := first.offset + rest.length + 1
      highlight := if first.isNewline then none else first.owner.map (·.highlight) }

def paint (bytes : List Cell) (w : Window) (captures : List Capture) : List Span :=
  ((painted bytes w (Capture.innermostFirst captures)).splitBy Painted.joins).filterMap spanOf?

end Segment

end SyntaxStream
