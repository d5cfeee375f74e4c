namespace SyntaxStream.Markdown

def isGap (c : Char) : Bool := c == ' ' || c == '\t' || c == '\x0b' || c == '\x0c'

def isSpace (c : Char) : Bool := isGap c || c == '\n' || c == '\r'

def isPunctuation (c : Char) : Bool :=
  let n := c.toNat
  (0x21 ≤ n && n ≤ 0x2F) || (0x3A ≤ n && n ≤ 0x40) || (0x5B ≤ n && n ≤ 0x60) ||
    (0x7B ≤ n && n ≤ 0x7E)

def skipGaps (cs : List Char) : List Char := cs.dropWhile isGap

-- What follows the end of a line. The end of the text ends a line as well.
def lineEnd? : List Char → Option (List Char)
  | [] => some []
  | '\n' :: rest => some rest
  | '\r' :: '\n' :: rest => some rest
  | '\r' :: rest => some rest
  | _ => none

def atLineEnd (cs : List Char) : Bool := (lineEnd? cs).isSome

-- What follows a line of which only blanks remain.
def blankLine? (cs : List Char) : Option (List Char) := lineEnd? (skipGaps cs)

def isBlankLine (cs : List Char) : Bool := (blankLine? cs).isSome

-- The line up to and with its newline. A carriage return alone ends no such line.
def thisLine : List Char → List Char
  | [] => []
  | '\n' :: _ => ['\n']
  | c :: rest => c :: thisLine rest

def nextLine (cs : List Char) : List Char := (cs.dropWhile (· != '\n')).drop 1

-- What follows the end of the current line, which a carriage return may end.
def afterLine (cs : List Char) : List Char :=
  (lineEnd? (cs.dropWhile fun c => c != '\n' && c != '\r')).getD []

-- A place in the indentation of a line. A tab reaches to the next multiple of four columns since
-- the latest tab; what remains of one that has been taken in part is spare.
structure Cursor where
  rest : List Char
  columns : Nat
  spare : Nat
deriving Repr, DecidableEq, Inhabited

namespace Cursor

def ofRest (rest : List Char) : Cursor := ⟨rest, 0, 0⟩

-- Takes columns of space, as many as there are up to a number. Gives how many are missing.
def take (wanted : Nat) (rest : List Char) (columns : Nat) : Nat × Cursor :=
  match wanted, rest with
  | 0, _ => (0, ⟨rest, columns, 0⟩)
  | wanted + 1, ' ' :: rest => take wanted rest (columns + 1)
  | wanted + 1, '\t' :: rest =>
    let width := 4 - columns % 4
    if width ≤ wanted + 1 then take (wanted + 1 - width) rest 0
    else (0, ⟨rest, 0, width - (wanted + 1)⟩)
  | wanted, _ => (wanted, ⟨rest, columns, 0⟩)
termination_by structural rest

def skip (wanted : Nat) (c : Cursor) : Nat × Cursor :=
  if wanted ≤ c.spare then (0, { c with spare := c.spare - wanted })
  else take (wanted - c.spare) c.rest c.columns

-- Takes columns of space; whether there were that many, and the place after those there were.
def skipAll (wanted : Nat) (c : Cursor) : Bool × Cursor :=
  let (missing, c) := c.skip wanted
  (missing == 0, c)

-- Takes up to a number of columns of space. Gives how many there were.
def skipUpTo (limit : Nat) (c : Cursor) : Nat × Cursor :=
  let (missing, c) := c.skip limit
  (limit - missing, c)

-- Passes over a character that is not a blank.
def advance (c : Cursor) (count : Nat) : Cursor :=
  { c with rest := c.rest.drop count, columns := c.columns + count }

def atEnd (c : Cursor) : Bool := atLineEnd c.rest

-- Passes over the sign of a block quote and at most one column of space after it.
def quoteSign? (c : Cursor) : Option Cursor :=
  match c.rest with
  | '>' :: _ => some ((c.advance 1).skipUpTo 1).2
  | _ => none

end Cursor

end SyntaxStream.Markdown
