import SyntaxStream.Proofs.Json.Reading
import SyntaxStream.Proofs.Text.Form
import SyntaxStream.Wire.Codec

namespace SyntaxStream.Codec

open Json (Document Fault)

-- A codec that reads back what it has written: parameters whatever they are, and documents that
-- are not nested too deeply for a reader, with natural numbers for their numbers. How it writes
-- them is left open.
class ReadsBack [Codec] : Prop where
  form (pairs : List (String × String)) : readForm (writeForm pairs) = pairs
  json {value : Json} : value.IsNatural → value.depth ≤ Document.depthLimit →
    readJson (writeJson value) = (Document.ofJson value, true)

instance : ReadsBack where
  form := Text.decodeForm_encodeForm
  json := Document.ofText_compact

variable {α : Type} {f : Document → Except Fault α} {value : Json}

-- Reading a document that is written is reading the document.
theorem decode_writeJson [Codec] [ReadsBack] (hn : value.IsNatural)
    (hd : value.depth ≤ Document.depthLimit) :
    decode f (writeJson value) = f (Document.ofJson value) := by
  rw [decode, ReadsBack.json hn hd, Json.decodeFrom]
  cases f (Document.ofJson value) <;> rfl

end SyntaxStream.Codec
