import SyntaxStream.Text.Blank
import SyntaxStream.Text.Natural
import SyntaxStream.Text.Utf8

namespace SyntaxStream.Text

def isAsciiAlphanumeric (b : UInt8) : Bool :=
  (0x30 ≤ b && b ≤ 0x39) || (0x41 ≤ b && b ≤ 0x5A) || (0x61 ≤ b && b ≤ 0x7A)

-- The bytes that stay as they are in a component of an address.
def isComponentByte (b : UInt8) : Bool :=
  isAsciiAlphanumeric b || "-_.!~*'()".toUTF8.toList.contains b

-- The length of a text written as a component of an address. Every other byte takes three.
def componentLength (s : String) : Nat :=
  (utf8Bytes s).foldl (fun n b => n + if isComponentByte b then 1 else 3) 0

-- The bytes that stay as they are in a form.
def isFormByte (b : UInt8) : Bool :=
  isAsciiAlphanumeric b || "*-._".toUTF8.toList.contains b

def upperHex (n : Nat) : Char := (Nat.digitChar (n % 16)).toUpper

-- A byte of a form. A blank becomes a plus sign.
def formByte (b : UInt8) : List Char :=
  if isFormByte b then [Char.ofNat b.toNat]
  else if b == 0x20 then ['+']
  else ['%', upperHex (b.toNat / 16), upperHex b.toNat]

def formEncode (s : String) : String :=
  String.ofList ((utf8Bytes s).flatMap formByte)

def encodeForm (pairs : List (String × String)) : String :=
  "&".intercalate (pairs.map fun (name, value) => formEncode name ++ "=" ++ formEncode value)

-- The value of a byte that is a hexadecimal digit.
def hexByte? (b : UInt8) : Option Nat := digitIn? 16 (Char.ofNat b.toNat)

-- Undoes the encoding of bytes. A percent sign without two digits after it stands for itself.
def formDecodeBytes : List UInt8 → List UInt8
  | [] => []
  | b :: rest =>
    if b == 0x25 then
      match rest with
      | x :: y :: rest' =>
        match hexByte? x, hexByte? y with
        | some m, some n => (16 * m + n).toUInt8 :: formDecodeBytes rest'
        | _, _ => b :: formDecodeBytes (x :: y :: rest')
      | short => b :: formDecodeBytes short
    else if b == 0x2B then 0x20 :: formDecodeBytes rest
    else b :: formDecodeBytes rest

def formDecode (s : String) : String :=
  decodeLossy (formDecodeBytes (utf8Bytes s))

-- A part of a form: a name, and a value after the first equals sign.
def formPair (part : List Char) : String × String :=
  (formDecode (String.ofList (part.takeWhile (· != '='))),
    formDecode (String.ofList ((part.dropWhile (· != '=')).drop 1)))

-- The names and values of a form, as they come. Empty parts count for nothing.
def decodeForm (s : String) : List (String × String) :=
  ((splitAll (· == '&') s.toList).filter fun part => !part.isEmpty).map formPair

end SyntaxStream.Text
