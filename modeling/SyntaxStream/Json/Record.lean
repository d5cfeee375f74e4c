import SyntaxStream.Json.Decode

namespace SyntaxStream.Json

-- A field of a record, and how its value changes what is known of the record.
structure RecordField (α : Type) where
  name : String
  put : α → Document → Except Fault α

namespace Document

variable {α : Type}

-- The fields of an object in the order of the text. No field may come twice; one that is not of
-- the record is passed over.
def readEntries (fields : List (RecordField α)) (seen : List String) (a : α) :
    List (String × Document) → Except Fault α
  | [] => .ok a
  | (key, d) :: rest =>
    match fields.find? (·.name == key) with
    | none => do
      d.ignore
      readEntries fields seen a rest
    | some field =>
      if seen.contains key then .error .mismatch
      else do
        let a ← field.put a d
        readEntries fields (key :: seen) a rest

-- The fields by their places. The last ones may be missing.
def readItems : List (RecordField α) → α → List Document → Except Fault α
  | _, a, [] => .ok a
  | [], _, _ :: _ => .error .malformed
  | field :: fields, a, d :: rest => do
    let a ← field.put a d
    readItems fields a rest

-- A record is an object, or an array of its fields in their order.
def readRecord (fields : List (RecordField α)) (start : α) : Document → Except Fault α
  | .object entries => readEntries fields [] start entries
  | .array items => readItems fields start items
  | d => d.unexpected

end Document

end SyntaxStream.Json
