import SyntaxStream.Highlight.Request
import SyntaxStream.Json.Record
import SyntaxStream.Wire.Tokens

namespace SyntaxStream

open Json (Document Fault RecordField)

namespace ThemeSelection

def toJson : ThemeSelection → Json
  | single id => .string id
  | variants themes => .object (themes.entries.map fun (variant, id) => (variant, .string id))

-- A string is a single theme, an object gives the theme of each variant.
def ofDocument (d : Document) : Except Fault ThemeSelection := do
  let _ ← d.value
  match d with
  | .string id => return single id
  | .object entries =>
    let pairs ← entries.mapM fun (variant, id) => do return (variant, ← id.asString)
    return variants (Dict.ofList pairs)
  | _ => throw .mismatch

end ThemeSelection

namespace HighlightOptions

-- A missing fence meta is left out.
def toJson (o : HighlightOptions) : Json :=
  .object ([("highlights", .array (o.highlights.map .ofNat))] ++
    Json.optionalField "meta" .string o.fenceMeta)

def fields : List (RecordField HighlightOptions) := [
  ⟨"highlights", fun o d => do return { o with highlights := ← d.asNaturalList }⟩,
  ⟨"meta", fun o d => do return { o with fenceMeta := ← d.asOption Document.asString }⟩]

def ofDocument (d : Document) : Except Fault HighlightOptions :=
  d.readRecord fields .none

end HighlightOptions

namespace HighlightRequest

def toJson (r : HighlightRequest) : Json :=
  .object [("code", .string r.code), ("lang", .string r.lang), ("theme", r.theme.toJson),
    ("options", r.options.toJson)]

-- A request whose code may still be missing.
structure Draft where
  code : Option String
  lang : String
  theme : ThemeSelection
  options : HighlightOptions
deriving Inhabited

def draftFields : List (RecordField Draft) := [
  ⟨"code", fun r d => do return { r with code := some (← d.asString) }⟩,
  ⟨"lang", fun r d => do return { r with lang := ← d.asString }⟩,
  ⟨"theme", fun r d => do return { r with theme := ← ThemeSelection.ofDocument d }⟩,
  ⟨"options", fun r d => do return { r with options := ← HighlightOptions.ofDocument d }⟩]

-- Only the code has to be there.
def ofDocument (d : Document) : Except Fault HighlightRequest := do
  let draft ← d.readRecord draftFields ⟨none, "", .unspecified, .none⟩
  match draft.code with
  | some code => return ⟨code, draft.lang, draft.theme, draft.options⟩
  | none => throw .mismatch

end HighlightRequest

end SyntaxStream
