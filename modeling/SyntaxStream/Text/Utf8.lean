namespace SyntaxStream.Text

def utf8Bytes (s : String) : List UInt8 := s.toUTF8.toList

-- What a byte announces when it starts a character: how many bytes follow, the bits it gives, and
-- the bounds of the byte after it.
structure Lead where
  following : Nat
  bits : Nat
  low : UInt8
  high : UInt8
deriving Repr, DecidableEq

-- Overlong forms, halves of surrogate pairs and numbers beyond the last character are excluded by
-- the bounds of the second byte.
def lead? (b : UInt8) : Option Lead :=
  let n := b.toNat
  if 0xC2 ≤ n ∧ n ≤ 0xDF then some ⟨1, n - 0xC0, 0x80, 0xBF⟩
  else if n = 0xE0 then some ⟨2, 0, 0xA0, 0xBF⟩
  else if n = 0xED then some ⟨2, 0xD, 0x80, 0x9F⟩
  else if 0xE1 ≤ n ∧ n ≤ 0xEF then some ⟨2, n - 0xE0, 0x80, 0xBF⟩
  else if n = 0xF0 then some ⟨3, 0, 0x90, 0xBF⟩
  else if 0xF1 ≤ n ∧ n ≤ 0xF3 then some ⟨3, n - 0xF0, 0x80, 0xBF⟩
  else if n = 0xF4 then some ⟨3, 4, 0x80, 0x8F⟩
  else none

-- What stands for bytes that are no character.
def replacement : Char := '\ufffd'

-- Decodes bytes one at a time. Within a character it is known what is still to come. Each longest
-- start of a character that is not completed is replaced as a whole.
def decodeFrom : Option Lead → List UInt8 → List Char
  | none, [] => []
  | some _, [] => [replacement]
  | none, b :: rest =>
    if b < 0x80 then Char.ofNat b.toNat :: decodeFrom none rest
    else match lead? b with
      | some lead => decodeFrom (some lead) rest
      | none => replacement :: decodeFrom none rest
  | some lead, b :: rest =>
    if lead.low ≤ b && b ≤ lead.high then
      let bits := 64 * lead.bits + (b.toNat - 0x80)
      if lead.following ≤ 1 then Char.ofNat bits :: decodeFrom none rest
      else decodeFrom (some ⟨lead.following - 1, bits, 0x80, 0xBF⟩) rest
    else if b < 0x80 then replacement :: Char.ofNat b.toNat :: decodeFrom none rest
    else match lead? b with
      | some lead => replacement :: decodeFrom (some lead) rest
      | none => replacement :: replacement :: decodeFrom none rest

-- The text of some bytes. What is no character is replaced.
def decodeLossy (bytes : List UInt8) : String :=
  String.ofList (decodeFrom none bytes)

end SyntaxStream.Text
