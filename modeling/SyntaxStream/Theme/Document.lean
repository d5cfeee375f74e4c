import SyntaxStream.Theme.Basic
import SyntaxStream.Yaml.Typed

namespace SyntaxStream.ThemeData

open Yaml (Document RecordField)

-- The colors of a block as far as they have been read.
structure BlockDraft where
  background : Option String
  foreground : Option String
deriving Inhabited

def blockFields : List (RecordField BlockDraft) := [
  ⟨"background", fun b d n => do return { b with background := some (← d.string? n) }⟩,
  ⟨"foreground", fun b d n => do return { b with foreground := some (← d.string? n) }⟩]

-- The description of a theme as far as it has been read.
structure Draft where
  version : Option Nat
  name : Option String
  author : Option String
  description : Option String
  block : Option (String × String)
  scopes : Dict String
deriving Inhabited

def block? (d : Document) (node : Yaml.Node) : Option (String × String) := do
  let b ← d.record? blockFields ⟨none, none⟩ node
  return (← b.background, ← b.foreground)

-- Versions are numbers of 32 bits.
def versionBound : Nat := 4294967296

def fields : List (RecordField Draft) := [
  ⟨"version", fun t d n => do return { t with version := some (← d.natural? versionBound n) }⟩,
  ⟨"name", fun t d n => do return { t with name := some (← d.string? n) }⟩,
  ⟨"author", fun t d n => do return { t with author := ← d.optionalString? n }⟩,
  ⟨"description", fun t d n => do return { t with description := ← d.optionalString? n }⟩,
  ⟨"block", fun t d n => do return { t with block := some (← block? d n) }⟩,
  ⟨"syntax", fun t d n => do return { t with scopes := ← d.dict? n }⟩]

-- Reads the description of a theme. Version, name and the colors of the block have to be there.
def ofYaml? (text : String) : Option ThemeData := do
  let d ← Document.ofText? text
  let t ← d.record? fields ⟨none, none, none, none, none, .empty⟩ d.root
  let (background, foreground) ← t.block
  return {
    version := ← t.version
    name := ← t.name
    author := t.author
    description := t.description
    background, foreground
    scopes := t.scopes }

end SyntaxStream.ThemeData
