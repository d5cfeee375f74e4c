import SyntaxStream.Text.Natural
import SyntaxStream.Yaml.Place

namespace SyntaxStream.Yaml

inductive ScalarStyle where
  | plain | singleQuoted | doubleQuoted | literal | folded
deriving Repr, DecidableEq, Inhabited

-- The blanks and line ends between two parts of a scalar.
structure Gap where
  -- the blanks, if no line has ended
  blanks : List Char
  -- what the first line end stands for
  firstBreak : List Char
  -- what the others stand for
  otherBreaks : List Char
  -- whether a line has ended
  broken : Bool
deriving Repr, DecidableEq, Inhabited

namespace Gap

def none : Gap := ⟨[], [], [], false⟩

-- Gaps are folded: a single line end is a blank, and of several the first counts for nothing.
def text (g : Gap) : List Char :=
  if !g.broken then g.blanks
  else if g.firstBreak == ['\n'] then
    if g.otherBreaks.isEmpty then [' '] else g.otherBreaks
  else g.firstBreak ++ g.otherBreaks

-- Reads a gap. In a plain scalar no tab may stand in the indentation.
def read? (tabsFrom : Nat) (fuel : Nat) (g : Gap) (p : Place) : Option (Gap × Place) :=
  match fuel with
  | 0 => some (g, p)
  | fuel + 1 =>
    match p.rest with
    | [] => some (g, p)
    | c :: _ =>
      if isBlank c then
        if g.broken then
          if c == '\t' && p.column < tabsFrom then Option.none
          else read? tabsFrom fuel g (p.skip 1)
        else read? tabsFrom fuel { g with blanks := g.blanks ++ [c] } (p.skip 1)
      else if isBreak c then
        let next := if g.broken then { g with otherBreaks := g.otherBreaks ++ p.breakText }
          else { g with blanks := [], firstBreak := p.breakText, broken := true }
        read? tabsFrom fuel next p.skipBreak
      else some (g, p)

end Gap

namespace Quoted

-- The value of a number of hexadecimal digits at the start of a text.
def hex? (count : Nat) (cs : List Char) : Option Nat :=
  let digits := cs.take count
  if digits.length = count then Text.digits? 16 digits else none

def charOf? (n : Nat) : Option Char :=
  if n.isValidChar then some (Char.ofNat n) else none

-- The character that an escape stands for, and how many characters it takes.
def escape? (cs : List Char) : Option (Char × Nat) :=
  match cs with
  | [] => none
  | c :: rest =>
    match c with
    | '0' => some ('\x00', 1)
    | 'a' => some ('\x07', 1)
    | 'b' => some ('\x08', 1)
    | 't' => some ('\t', 1)
    | '\t' => some ('\t', 1)
    | 'n' => some ('\n', 1)
    | 'v' => some ('\x0b', 1)
    | 'f' => some ('\x0c', 1)
    | 'r' => some ('\r', 1)
    | 'e' => some ('\x1b', 1)
    | ' ' => some (' ', 1)
    | '"' => some ('"', 1)
    | '/' => some ('/', 1)
    | '\\' => some ('\\', 1)
    | 'N' => some ('\u0085', 1)
    | '_' => some ('\u00a0', 1)
    | 'L' => some ('\u2028', 1)
    | 'P' => some ('\u2029', 1)
    | 'x' => ((hex? 2 rest).bind charOf?).map fun c => (c, 3)
    | 'u' => ((hex? 4 rest).bind charOf?).map fun c => (c, 5)
    | 'U' => ((hex? 8 rest).bind charOf?).map fun c => (c, 9)
    | _ => none

-- Reads a scalar whose opening quote has been passed. Gives its text and the place behind the
-- closing quote.
def read? (single : Bool) (fuel : Nat) (text : List Char) (p : Place) :
    Option (List Char × Place) :=
  match fuel with
  | 0 => none
  | fuel + 1 =>
    if p.atDocumentMark then none
    else match p.rest with
      | [] => none
      | c :: rest =>
        if isBlank c || isBreak c then
          match Gap.read? 0 (p.rest.length + 1) .none p with
          | some (g, p) => read? single fuel (text ++ g.text) p
          | none => none
        else if single then
          if c == '\'' then
            if rest.head? == some '\'' then read? single fuel (text ++ ['\'']) (p.skip 2)
            else some (text, p.skip 1)
          else read? single fuel (text ++ [c]) (p.skip 1)
        else if c == '"' then some (text, p.skip 1)
        else if c == '\\' then
          if rest.head?.any isBreak then
            -- an escaped line end counts for nothing, but those after it count
            match Gap.read? 0 (p.rest.length + 1) ⟨[], [], [], true⟩ (p.skip 1).skipBreak with
            | some (g, p) => read? single fuel (text ++ g.otherBreaks) p
            | none => none
          else match escape? rest with
            | some (d, count) => read? single fuel (text ++ [d]) (p.skip (count + 1))
            | none => none
        else read? single fuel (text ++ [c]) (p.skip 1)

end Quoted

namespace Plain

-- Whether a plain scalar ends before a character, or must not contain it.
inductive Verdict where
  | goesOn | ends | invalid
deriving Repr, DecidableEq

def verdict (inFlow : Bool) (cs : List Char) : Verdict :=
  match cs with
  | [] => .ends
  | c :: rest =>
    if c == ':' && inFlow && rest.head?.any (fun d => ",?[]\x7b\x7d".toList.contains d) then .invalid
    else if c == ':' && blankAhead rest then .ends
    else if inFlow && ",[]\x7b\x7d".toList.contains c then .ends
    else .goesOn

-- Reads a plain scalar. Gives its text, whether a line has ended after it, and the place behind
-- it and the blanks that follow.
def read? (inFlow : Bool) (indent : Nat) (fuel : Nat) (text : List Char) (g : Gap) (p : Place) :
    Option (List Char × Bool × Place) :=
  match fuel with
  | 0 => none
  | fuel + 1 =>
    match p.rest with
    | [] => some (text, g.broken, p)
    | c :: _ =>
      if isBlank c || isBreak c then
        match Gap.read? indent (p.rest.length + 1) .none p with
        | none => none
        | some (g, p) =>
          if (!inFlow && p.column < indent) || p.atDocumentMark || p.rest.head? == some '#' then
            some (text, g.broken, p)
          else read? inFlow indent fuel text g p
      else match verdict inFlow p.rest with
        | .invalid => none
        | .ends => some (text, g.broken, p)
        | .goesOn => read? inFlow indent fuel (text ++ g.text ++ [c]) .none (p.skip 1)

end Plain

namespace Block

-- What happens to the line ends after the text.
inductive Chomping where
  | strip | clip | keep
deriving Repr, DecidableEq, Inhabited

-- Reads the marks behind the sign of a block scalar, in either order.
def header? (p : Place) : Option (Chomping × Option Nat × Place) :=
  let chomping? (c : Char) : Option Chomping :=
    if c == '+' then some .keep else if c == '-' then some .strip else none
  let digit? (c : Char) : Option Nat :=
    if '0' ≤ c ∧ c ≤ '9' then some (c.toNat - '0'.toNat) else none
  let valid (r : Chomping × Option Nat × Place) :=
    if r.2.1 == some 0 then none else some r
  match p.rest with
  | [] => some (.clip, none, p)
  | c :: rest =>
    match chomping? c, digit? c with
    | some chomping, _ =>
      match rest.head?.bind digit? with
      | some n => valid (chomping, some n, p.skip 2)
      | none => some (chomping, none, p.skip 1)
    | none, some n =>
      match rest.head?.bind chomping? with
      | some chomping => valid (chomping, some n, p.skip 2)
      | none => valid (.clip, some n, p.skip 1)
    | none, none => some (.clip, none, p)

-- Passes over the indentation of a line and over lines without text. Gives the line ends and the
-- largest column reached. An indentation that is not known yet is as large as there are blanks.
def breaks? (indent : Option Nat) (fuel : Nat) (ends : List Char) (reached : Nat) (p : Place) :
    Option (List Char × Nat × Place) :=
  match fuel with
  | 0 => none
  | fuel + 1 =>
    let spaces := (p.rest.takeWhile (· == ' ')).length
    let p := p.skip (match indent with
      | some n => min spaces (n - p.column)
      | none => spaces)
    let reached := max reached p.column
    let short := match indent with
      | some n => p.column < n
      | none => true
    match p.rest with
    | [] => some (ends, reached, p)
    | c :: _ =>
      if short && c == '\t' then none
      else if isBreak c then breaks? indent fuel (ends ++ p.breakText) reached p.skipBreak
      else some (ends, reached, p)

-- The text of a block scalar as far as it has been read.
structure Body where
  text : List Char
  -- what the end of the latest line stands for
  lineEnd : List Char
  -- what the ends of the empty lines after it stand for
  emptyLines : List Char
  -- whether the latest line starts with a blank
  indented : Bool
deriving Repr, DecidableEq, Inhabited

-- The text with the line end before a line that starts with a certain character.
def Body.joined (b : Body) (isFolded nextIndented : Bool) : List Char :=
  let lineEnd := if isFolded && b.lineEnd == ['\n'] && !b.indented && !nextIndented then
      if b.emptyLines.isEmpty then [' '] else []
    else b.lineEnd
  b.text ++ lineEnd ++ b.emptyLines

-- Reads the lines that have the indentation.
def lines? (isFolded : Bool) (indent : Nat) (fuel : Nat) (b : Body) (p : Place) :
    Option (Body × Place) :=
  match fuel with
  | 0 => none
  | fuel + 1 =>
    match p.rest with
    | [] => some (b, p)
    | c :: _ =>
      if p.column != indent then some (b, p)
      else
        let line := p.rest.takeWhile fun d => !isBreak d
        let atEnd := p.skip line.length
        let text := b.joined isFolded (isBlank c) ++ line
        match breaks? (some indent) (p.rest.length + 2) [] 0 atEnd.skipBreak with
        | none => none
        | some (ends, _, next) =>
          lines? isFolded indent fuel ⟨text, atEnd.breakText, ends, isBlank c⟩ next

-- Reads a block scalar whose sign has been passed. The indentation around it is given, none being
-- less than zero.
def read? (isFolded : Bool) (outer : Int) (p : Place) : Option (List Char × Place) := do
  let (chomping, increment, p) ← header? p
  let p ← p.finishLine?
  let fuel := p.rest.length + 2
  let known := increment.map fun n => (max outer 0).toNat + n
  let (ends, reached, p) ← breaks? known fuel [] 0 p
  let indent := known.getD (max (max reached (outer + 1).toNat) 1)
  let (b, p) ← lines? isFolded indent fuel ⟨[], [], ends, false⟩ p
  return (match chomping with
    | .strip => b.text
    | .clip => b.text ++ b.lineEnd
    | .keep => b.text ++ b.lineEnd ++ b.emptyLines, p)

end Block

end SyntaxStream.Yaml
