namespace SyntaxStream.Yaml

-- A place in a text: what follows it, and where it is.
structure Place where
  rest : List Char
  line : Nat
  column : Nat
  index : Nat
deriving Repr, DecidableEq, Inhabited

def isBlank (c : Char) : Bool := c == ' ' || c == '\t'

def isBreak (c : Char) : Bool :=
  c == '\n' || c == '\r' || c.toNat == 0x85 || c.toNat == 0x2028 || c.toNat == 0x2029

-- A letter or digit of ASCII, a hyphen or an underscore.
def isWordChar (c : Char) : Bool := c.isAlphanum || c == '_' || c == '-'

-- The characters a text may consist of.
def isAllowed (c : Char) : Bool :=
  let n := c.toNat
  n == 0x09 || n == 0x0A || n == 0x0D || (0x20 ≤ n && n ≤ 0x7E) || n == 0x85 ||
    (0xA0 ≤ n && n ≤ 0xD7FF) || (0xE000 ≤ n && n ≤ 0xFFFD) || 0x10000 ≤ n

-- Whether a blank, the end of a line or the end of the text stands at the start.
def blankAhead : List Char → Bool
  | [] => true
  | c :: _ => isBlank c || isBreak c

def lineEndAhead : List Char → Bool
  | [] => true
  | c :: _ => isBreak c

namespace Place

def start (cs : List Char) : Place := ⟨cs, 0, 0, 0⟩

def skip (p : Place) (count : Nat) : Place :=
  { p with rest := p.rest.drop count, column := p.column + count, index := p.index + count }

def skipBreak (p : Place) : Place :=
  match p.rest with
  | '\r' :: '\n' :: rest => ⟨rest, p.line + 1, 0, p.index + 2⟩
  | _ :: rest => ⟨rest, p.line + 1, 0, p.index + 1⟩
  | [] => p

-- What the end of a line stands for within a scalar.
def breakText (p : Place) : List Char :=
  match p.rest with
  | [] => []
  | c :: _ => if c.toNat == 0x2028 || c.toNat == 0x2029 then [c] else ['\n']

def skipWhile (p : Place) (ok : Char → Bool) : Place :=
  p.skip (p.rest.takeWhile ok).length

def skipBlanks (p : Place) : Place := p.skipWhile isBlank

def skipLine (p : Place) : Place := p.skipWhile fun c => !isBreak c

-- Passes over blanks and a comment, which have to reach the end of the line.
def finishLine? (p : Place) : Option Place :=
  let p := p.skipBlanks
  let p := if p.rest.head? == some '#' then p.skipLine else p
  if lineEndAhead p.rest then some p.skipBreak else none

def atDocumentMark (p : Place) : Bool :=
  p.column == 0 && (match p.rest with
    | '-' :: '-' :: '-' :: rest => blankAhead rest
    | '.' :: '.' :: '.' :: rest => blankAhead rest
    | _ => false)

end Place

end SyntaxStream.Yaml
