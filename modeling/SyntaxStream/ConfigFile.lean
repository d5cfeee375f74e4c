import SyntaxStream.Config
import SyntaxStream.Theme.Library
import SyntaxStream.Yaml.Writer

namespace SyntaxStream.Config

open Yaml (RecordField)

-- Timeouts are numbers of 64 bits.
def fields : List (RecordField Config) := [
  ⟨"theme", fun c d n => do return { c with theme := ← d.string? n }⟩,
  ⟨"language", fun c d n => do return { c with language := ← d.string? n }⟩,
  ⟨"allow_recalls", fun c d n => do return { c with allowRecalls := ← d.bool? n }⟩,
  ⟨"endpoint", fun c d n => do return { c with endpoint := ← d.string? n }⟩,
  ⟨"listen", fun c d n => do return { c with listen := ← d.string? n }⟩,
  ⟨"request_timeout_secs", fun c d n => do
    return { c with requestTimeoutSecs := ← d.natural? Text.wordBound n }⟩]

-- Fields that are missing have their defaults.
def ofYaml? (text : String) : Option Config := do
  let d ← Yaml.Document.ofText? text
  d.record? fields defaults d.root

-- The settings in a file. A file that is missing or cannot be read changes nothing.
def load : Option FileEntry → Config
  | some (.text content) => (ofYaml? content).getD defaults
  | _ => defaults

def toYaml (c : Config) : String :=
  Yaml.Writer.record [
    ("theme", .string c.theme),
    ("language", .string c.language),
    ("allow_recalls", .bool c.allowRecalls),
    ("endpoint", .string c.endpoint),
    ("listen", .string c.listen),
    ("request_timeout_secs", .natural c.requestTimeoutSecs)]

end SyntaxStream.Config
