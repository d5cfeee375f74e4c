import SyntaxStream.Config
import SyntaxStream.Json.Record

namespace SyntaxStream.Config

open Json (Document Fault RecordField)

def toJson (c : Config) : Json :=
  .object [("theme", .string c.theme), ("language", .string c.language),
    ("allow_recalls", .bool c.allowRecalls), ("endpoint", .string c.endpoint),
    ("listen", .string c.listen), ("request_timeout_secs", .ofNat c.requestTimeoutSecs)]

def jsonFields : List (RecordField Config) := [
  ⟨"theme", fun c d => do return { c with theme := ← d.asString }⟩,
  ⟨"language", fun c d => do return { c with language := ← d.asString }⟩,
  ⟨"allow_recalls", fun c d => do return { c with allowRecalls := ← d.asBool }⟩,
  ⟨"endpoint", fun c d => do return { c with endpoint := ← d.asString }⟩,
  ⟨"listen", fun c d => do return { c with listen := ← d.asString }⟩,
  ⟨"request_timeout_secs", fun c d => do
    return { c with requestTimeoutSecs := ← d.asNatural }⟩]

-- Fields that are missing have their defaults.
def ofDocument (d : Document) : Except Fault Config :=
  d.readRecord jsonFields defaults

end SyntaxStream.Config
