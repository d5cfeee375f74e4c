import SyntaxStream.Highlight.Result
import SyntaxStream.Json.Record

namespace SyntaxStream

open Json (Document Fault RecordField)

namespace Node

mutual

def toJson : Node → Json
  | text value => .object [("type", .string "text"), ("value", .string value)]
  | element tag properties children =>
    .object [("type", .string "element"), ("tagName", .string tag),
      ("properties", .object properties.entries), ("children", .array (toJsonList children))]

def toJsonList : List Node → List Json
  | [] => []
  | node :: rest => node.toJson :: toJsonList rest

end

inductive Kind where
  | text
  | element
deriving Repr, DecidableEq, Inhabited

namespace Kind

-- A kind is given by its name; within another node also by its number.
def ofDocument (nested : Bool) : Document → Except Fault Kind
  | .string "text" => .ok text
  | .string "element" => .ok element
  | .number (.integer n) =>
    if nested && n == 0 then .ok text
    else if nested && n == 1 then .ok element
    else .error .mismatch
  | d => d.unexpected

end Kind

-- What is known of a field: its value, or why it cannot be read. It counts only if the kind of
-- the node has such a field.
abbrev Known (α : Type) := Option (Except Fault α)

-- A field that comes again is at fault.
def Known.again {α : Type} (known : Known α) (next : Except Fault α) : Known α :=
  some (if known.isSome then .error .mismatch else next)

-- The fields of a node as far as they are known.
structure Fields where
  kind : Option Kind
  value : Known String
  tag : Known String
  properties : Known (Dict Json)
  children : Known (List Node)
deriving Inhabited

namespace Fields

def unknown : Fields := ⟨none, none, none, none, none⟩

-- The node that has these fields. Only properties and children may be missing.
def toNode (f : Fields) : Except Fault Node := do
  match f.kind with
  | none => throw .mismatch
  | some .text => return .text (← f.value.getD (.error .mismatch))
  | some .element =>
    return .element (← f.tag.getD (.error .mismatch)) (← f.properties.getD (.ok .empty))
      (← f.children.getD (.ok []))

end Fields

def readProperties : Document → Except Fault (Dict Json)
  | .object entries => Document.entryValues entries
  | d => d.unexpected

mutual

-- Reads a node. It is an object that tells its kind anywhere, or an array that starts with it.
def ofDocument (nested : Bool) : Document → Except Fault Node
  | .object entries => do (← ofEntries nested .unknown entries).toNode
  | .array items => ofItems nested items
  | d => d.unexpected

def ofEntries (nested : Bool) (f : Fields) : List (String × Document) → Except Fault Fields
  | [] => .ok f
  | ("type", d) :: rest => do
    let kind ← Kind.ofDocument nested d
    if f.kind.isSome then throw .mismatch
    ofEntries nested { f with kind := some kind } rest
  | ("value", d) :: rest => do
    let _ ← d.value
    ofEntries nested { f with value := f.value.again d.asString } rest
  | ("tagName", d) :: rest => do
    let _ ← d.value
    ofEntries nested { f with tag := f.tag.again d.asString } rest
  | ("properties", d) :: rest => do
    let _ ← d.value
    ofEntries nested { f with properties := f.properties.again (readProperties d) } rest
  | ("children", d) :: rest => do
    let _ ← d.value
    ofEntries nested { f with children := f.children.again (readChildren d) } rest
  | (_, d) :: rest => do
    let _ ← d.value
    ofEntries nested f rest

def ofItems (nested : Bool) : List Document → Except Fault Node
  | [] => .error .mismatch
  | [kind, d] => do
    let _ ← d.value
    match ← Kind.ofDocument nested kind with
    | .text => return .text (← d.asString)
    | .element => return .element (← d.asString) .empty []
  | [kind, tag, properties] => do
    let kind ← Kind.ofDocument nested kind
    if kind == .text then throw .mismatch
    return .element (← tag.asString) (← readProperties properties) []
  | [kind, tag, properties, children] => do
    let kind ← Kind.ofDocument nested kind
    if kind == .text then throw .mismatch
    return .element (← tag.asString) (← readProperties properties) (← readChildren children)
  | _ => .error .mismatch

def readChildren : Document → Except Fault (List Node)
  | .array items => readNodes true items
  | d => d.unexpected

def readNodes (nested : Bool) : List Document → Except Fault (List Node)
  | [] => .ok []
  | d :: rest => do
    let node ← ofDocument nested d
    return node :: (← readNodes nested rest)

end

end Node

namespace HighlightResult

def toJson (r : HighlightResult) : Json :=
  .object [("tree", .array (Node.toJsonList r.tree)), ("className", .string r.className),
    ("style", .string r.style)]

def readTree : Document → Except Fault (List Node)
  | .array items => Node.readNodes false items
  | d => d.unexpected

def fields : List (RecordField HighlightResult) := [
  ⟨"tree", fun r d => do return { r with tree := ← readTree d }⟩,
  ⟨"className", fun r d => do return { r with className := ← d.asString }⟩,
  ⟨"style", fun r d => do return { r with style := ← d.asString }⟩]

-- Any field may be missing.
def ofDocument (d : Document) : Except Fault HighlightResult :=
  d.readRecord fields ⟨[], "", ""⟩

end HighlightResult

end SyntaxStream
