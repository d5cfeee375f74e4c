import SyntaxStream.Json.Decode
import SyntaxStream.Text.Percent

namespace SyntaxStream

-- How a message is written as text, and what such a text is read as: the parameters within an
-- address, and documents.
class Codec where
  writeForm : List (String × String) → String
  readForm : String → List (String × String)
  writeJson : Json → String
  -- what a text holds, and whether nothing follows it
  readJson : String → Json.Document × Bool

namespace Codec

instance standard : Codec where
  writeForm := Text.encodeForm
  readForm := Text.decodeForm
  writeJson := Json.compact
  readJson := Json.Document.ofText

-- What a text is as a document of some kind.
def decode [Codec] {α : Type} (f : Json.Document → Except Json.Fault α) (text : String) :
    Except Json.Fault α :=
  Json.decodeFrom (readJson text) f

end Codec

end SyntaxStream
