import SyntaxStream.Text.Natural

namespace SyntaxStream

structure Color where
  red : UInt8
  green : UInt8
  blue : UInt8
  alpha : UInt8
deriving Repr, DecidableEq, Inhabited

inductive ColorError where
  | format (text : String)
  | digit
deriving Repr, DecidableEq

namespace ColorError

def message : ColorError → String
  | format text => "Invalid color format: " ++ text
  | digit => "invalid digit found in string"

end ColorError

namespace Color

def opaqueOf (red green blue : UInt8) : Color := ⟨red, green, blue, 255⟩

-- The characters that make up exactly the next two bytes, and the rest.
def bytePair : List Char → Option (List Char × List Char)
  | a :: rest =>
    if a.utf8Size == 2 then some ([a], rest)
    else if a.utf8Size == 1 then
      match rest with
      | b :: rest => if b.utf8Size == 1 then some ([a, b], rest) else none
      | [] => none
    else none
  | [] => none

-- The next channel: two bytes that read as a hexadecimal numeral. A plus sign may stand for the
-- first digit.
def channel (text : String) (cs : List Char) : Except ColorError (UInt8 × List Char) :=
  match bytePair cs with
  | none => .error (.format text)
  | some (pair, rest) =>
    match Text.naturalIn? 16 256 pair with
    | none => .error .digit
    | some n => .ok (n.toUInt8, rest)

-- Reads a color in hexadecimal notation, with or without number signs in front.
def ofHex (s : String) : Except ColorError Color := do
  let cs := s.toList.dropWhile (· == '#')
  let text := String.ofList cs
  let size := text.utf8ByteSize
  if size == 6 || size == 8 then
    let (red, rest) ← channel text cs
    let (green, rest) ← channel text rest
    let (blue, rest) ← channel text rest
    if size == 6 then
      return opaqueOf red green blue
    let (alpha, _) ← channel text rest
    return ⟨red, green, blue, alpha⟩
  else
    throw (.format text)

def hexDigits (n : UInt8) : List Char :=
  [Nat.digitChar (n.toNat / 16), Nat.digitChar (n.toNat % 16)]

-- The notation of style sheets; an opaque color leaves its alpha channel out.
def toHex (c : Color) : String :=
  let channels := if c.alpha == 255 then [c.red, c.green, c.blue]
    else [c.red, c.green, c.blue, c.alpha]
  String.ofList ('#' :: channels.flatMap hexDigits)

end Color

end SyntaxStream
