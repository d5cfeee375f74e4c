import SyntaxStream.Text.Utf8
import SyntaxStream.Yaml.Scalar

namespace SyntaxStream.Yaml

-- The units of a text. Block collections are marked by their indentation, of which the tokens
-- keep only where it begins and ends.
inductive Token where
  | versionDirective
  | tagDirective (handle expansion : List Char)
  | documentStart
  | documentEnd
  | blockSequenceStart
  | blockMappingStart
  | blockEnd
  | flowSequenceStart
  | flowSequenceEnd
  | flowMappingStart
  | flowMappingEnd
  | blockEntry
  | flowEntry
  | key
  | value
  | alias (name : List Char)
  | anchor (name : List Char)
  | tag (handle suffix : List Char)
  | scalar (text : List Char) (style : ScalarStyle)
deriving Repr, DecidableEq, Inhabited

-- Names of anchors, and what may stand behind them.
def readName? (p : Place) : Option (List Char × Place) :=
  let name := p.rest.takeWhile isWordChar
  let next := p.skip name.length
  let closed := match next.rest with
    | [] => true
    | c :: _ => isBlank c || isBreak c || "?:,]\x7d%@\x60".toList.contains c
  if name.isEmpty || !closed then none else some (name, next)

namespace Tag

-- The number of bytes of a character in UTF-8 by its first byte.
def width? (n : Nat) : Option Nat :=
  if n < 0x80 then some 1
  else if 0xC0 ≤ n && n < 0xE0 then some 2
  else if 0xE0 ≤ n && n < 0xF0 then some 3
  else if 0xF0 ≤ n && n < 0xF8 then some 4
  else none

-- A byte written as a percent sign and two hexadecimal digits.
def escapedByte? : List Char → Option (Nat × List Char)
  | '%' :: a :: b :: rest => (Text.digits? 16 [a, b]).map fun n => (n, rest)
  | _ => none

-- A number of escaped bytes that continue a character.
def continuation? (count : Nat) (cs : List Char) : Option (List UInt8) :=
  match count with
  | 0 => some []
  | count + 1 => do
    let (n, rest) ← escapedByte? cs
    if 0x80 ≤ n && n < 0xC0 then return n.toUInt8 :: (← continuation? count rest) else none

-- The text of a character that is written with escaped bytes, and the number of bytes.
def escapedCharacter? (cs : List Char) : Option (List Char × Nat) := do
  let (first, rest) ← escapedByte? cs
  let width ← width? first
  let bytes := first.toUInt8 :: (← continuation? (width - 1) rest)
  return ((Text.decodeLossy bytes).toList, width)

-- The characters of the rest of a tag. Brackets and commas occur only in tags in angle brackets
-- and in directives.
def isUriChar (bracketed : Bool) (c : Char) : Bool :=
  isWordChar c || ";/?:@&=+$.%!~*'()".toList.contains c || (bracketed && ",[]".toList.contains c)

def uri? (bracketed : Bool) (fuel : Nat) (text : List Char) (p : Place) :
    Option (List Char × Place) :=
  match fuel with
  | 0 => none
  | fuel + 1 =>
    match p.rest with
    | [] => some (text, p)
    | c :: _ =>
      if c == '%' then
        match escapedCharacter? p.rest with
        | some (character, width) =>
          uri? bracketed fuel (text ++ character) (p.skip (3 * width))
        | none => none
      else if isUriChar bracketed c then uri? bracketed fuel (text ++ [c]) (p.skip 1)
      else some (text, p)

-- Reads a handle: an exclamation mark, and a word with another one if they are there.
def handle? (p : Place) : Option (List Char × Place) :=
  match p.rest with
  | '!' :: rest =>
    let word := rest.takeWhile isWordChar
    let next := p.skip (word.length + 1)
    if next.rest.head? == some '!' then some ('!' :: word ++ ['!'], next.skip 1)
    else some ('!' :: word, next)
  | _ => none

-- Reads a tag in angle brackets, behind the opening bracket.
def verbatim? (p : Place) : Option (Token × Place) := do
  let (suffix, p) ← uri? true (p.rest.length + 1) [] p
  if suffix.isEmpty || p.rest.head? != some '>' then none
  else return (.tag [] suffix, p.skip 1)

-- Reads a tag with a handle, or one that is only an exclamation mark and a suffix.
def shorthand? (p : Place) : Option (Token × Place) := do
  let (handle, p) ← handle? p
  let fuel := p.rest.length + 1
  if 2 ≤ handle.length && handle.getLast? == some '!' then
    let (suffix, p) ← uri? false fuel [] p
    if suffix.isEmpty then none else return (.tag handle suffix, p)
  else
    let (suffix, p) ← uri? false fuel handle.tail p
    return (if suffix.isEmpty then .tag [] ['!'] else .tag ['!'] suffix, p)

def read? (inFlow : Bool) (p : Place) : Option (Token × Place) := do
  let (token, p) ← match p.rest with
    | '!' :: '<' :: _ => verbatim? (p.skip 2)
    | _ => shorthand? p
  if blankAhead p.rest || (inFlow && p.rest.head? == some ',') then return (token, p) else none

end Tag

namespace Directive

def number? (p : Place) : Option (Nat × Place) :=
  let digits := p.rest.takeWhile Char.isDigit
  if digits.isEmpty || 9 < digits.length then none
  else (Text.digits? 10 digits).map fun n => (n, p.skip digits.length)

-- Versions 1.1 and 1.2 are understood.
def version? (p : Place) : Option (Token × Place) := do
  let (major, p) ← number? p.skipBlanks
  if p.rest.head? != some '.' then none
  else
    let (minor, p) ← number? (p.skip 1)
    if major == 1 && (minor == 1 || minor == 2) then return (.versionDirective, p) else none

def tag? (p : Place) : Option (Token × Place) := do
  let (handle, p) ← Tag.handle? p.skipBlanks
  if handle != ['!'] && (handle.length < 2 || handle.getLast? != some '!') then none
  else if !p.rest.head?.any isBlank then none
  else
    let p := p.skipBlanks
    let (expansion, p) ← Tag.uri? true (p.rest.length + 1) [] p
    if expansion.isEmpty || !blankAhead p.rest then none
    else return (.tagDirective handle expansion, p)

-- Reads a directive behind its percent sign, to the end of the line.
def read? (p : Place) : Option (Token × Place) := do
  let name := p.rest.takeWhile isWordChar
  let next := p.skip name.length
  if !blankAhead next.rest then none
  else
    let (token, next) ←
      if name == "YAML".toList then version? next
      else if name == "TAG".toList then tag? next
      else none
    return (token, ← next.finishLine?)

end Directive

end SyntaxStream.Yaml
