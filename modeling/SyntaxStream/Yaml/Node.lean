import SyntaxStream.Yaml.Lexer

namespace SyntaxStream.Yaml

structure Scalar where
  tag : Option (List Char)
  style : ScalarStyle
  text : List Char
deriving Repr, DecidableEq, Inhabited

-- A value without a type. An alias names the place of the value it stands for.
inductive Node where
  | alias (slot : Nat)
  | scalar (value : Scalar)
  | sequence (items : List Node)
  | mapping (entries : List (Node × Node))
deriving Inhabited

-- What stands where nothing is written.
def Node.empty (tag : Option (List Char)) : Node := .scalar ⟨tag, .plain, []⟩

-- A value with the values its aliases stand for.
structure Document where
  root : Node
  -- the number of the value in each slot
  slots : List (Nat × Nat)
  -- the values with an anchor by their numbers
  anchored : List (Nat × Node)
deriving Inhabited

def Document.resolve? (d : Document) : Node → Option Node
  | .alias slot => (d.slots.lookup slot).bind fun number => d.anchored.lookup number
  | node => some node

structure Reader where
  tokens : List Token
  -- what the handles of tags stand for
  handles : List (List Char × List Char)
  -- the slot of each anchor that has been met, the latest first
  anchors : List (List Char × Nat)
  slots : List (Nat × Nat)
  anchored : List (Nat × Node)
  -- how many values with an anchor have been begun
  begun : Nat
deriving Inhabited

abbrev Read := StateT Reader Option

namespace Read

def peek : Read (Option Token) := return (← get).tokens.head?

def advance : Read Unit := modify fun r => { r with tokens := r.tokens.tail }

-- Begins a value with an anchor. A new name takes the next slot and so does a name that is met
-- again, although its number does not grow then: two names may come to share a slot, which
-- belongs to the value that was begun last.
def begin? : Option (List Char) → Read (Option Nat)
  | none => return none
  | some name => do
    let r ← get
    let names := (r.anchors.map (·.1)).eraseDups
    set { r with
      anchors := (name, names.length) :: r.anchors
      slots := (names.length, r.begun) :: r.slots
      begun := r.begun + 1 }
    return some r.begun

-- Keeps a value with an anchor for its aliases.
def finish (number : Option Nat) (node : Node) : Read Node := do
  match number with
  | some number => modify fun r => { r with anchored := (number, node) :: r.anchored }
  | none => pure ()
  return node

def tag (handle suffix : List Char) : Read (List Char) := do
  if handle.isEmpty then return suffix
  else return (← (← get).handles.lookup handle) ++ suffix

-- The anchor and the tag of a value, in either order.
def properties : Read (Option (List Char) × Option (List Char)) := do
  match (← get).tokens with
  | .anchor name :: .tag handle suffix :: _ | .tag handle suffix :: .anchor name :: _ =>
    advance
    advance
    return (some name, some (← tag handle suffix))
  | .anchor name :: _ =>
    advance
    return (some name, none)
  | .tag handle suffix :: _ =>
    advance
    return (none, some (← tag handle suffix))
  | _ => return (none, none)

-- Reads a value, which is left out where one of some tokens stands.
def orEmpty (stops : List Token) (read : Read Node) : Read Node := do
  if (← peek).any stops.contains then return .empty none else read

mutual

-- Reads a value with its properties. Block collections are allowed in blocks only, and sequences
-- without indentation only as parts of mappings.
def node (fuel : Nat) (inBlock unindented : Bool) : Read Node :=
  match fuel with
  | 0 => failure
  | fuel + 1 => do
    match (← peek) with
    | some (.alias name) =>
      advance
      return .alias (← (← get).anchors.lookup name)
    | _ =>
      let (anchor, tag) ← properties
      let number ← begin? anchor
      finish number (← content fuel inBlock unindented (anchor.isSome || tag.isSome) tag)

def content (fuel : Nat) (inBlock unindented marked : Bool) (tag : Option (List Char)) :
    Read Node :=
  match fuel with
  | 0 => failure
  | fuel + 1 => do
    match (← peek), inBlock, unindented with
    | some .blockEntry, _, true => return .sequence (← bareItems fuel [])
    | some (.scalar text style), _, _ =>
      advance
      return .scalar ⟨tag.filter (· != ['!']), style, text⟩
    | some .flowSequenceStart, _, _ =>
      advance
      return .sequence (← flowItems fuel [])
    | some .flowMappingStart, _, _ =>
      advance
      return .mapping (← flowEntries fuel [])
    | some .blockSequenceStart, true, _ =>
      advance
      return .sequence (← blockItems fuel [])
    | some .blockMappingStart, true, _ =>
      advance
      return .mapping (← blockEntries fuel [])
    | _, _, _ => if marked then return .empty tag else failure

def blockItems (fuel : Nat) (items : List Node) : Read (List Node) :=
  match fuel with
  | 0 => failure
  | fuel + 1 => do
    match (← peek) with
    | some .blockEntry =>
      advance
      let item ← orEmpty [.blockEntry, .blockEnd] (node fuel true false)
      blockItems fuel (items ++ [item])
    | some .blockEnd =>
      advance
      return items
    | _ => failure

-- The items of a sequence without indentation.
def bareItems (fuel : Nat) (items : List Node) : Read (List Node) :=
  match fuel with
  | 0 => failure
  | fuel + 1 => do
    match (← peek) with
    | some .blockEntry =>
      advance
      let item ← orEmpty [.blockEntry, .key, .value, .blockEnd] (node fuel true false)
      bareItems fuel (items ++ [item])
    | _ => return items

def blockEntries (fuel : Nat) (entries : List (Node × Node)) : Read (List (Node × Node)) :=
  match fuel with
  | 0 => failure
  | fuel + 1 => do
    match (← peek) with
    | some .key =>
      advance
      let part := orEmpty [.key, .value, .blockEnd] (node fuel true true)
      let key ← part
      if (← peek) == some .value then
        advance
        blockEntries fuel (entries ++ [(key, ← part)])
      else blockEntries fuel (entries ++ [(key, .empty none)])
    | some .blockEnd =>
      advance
      return entries
    | _ => failure

-- The items behind an opening bracket. An entry of a mapping may stand as an item.
def flowItems (fuel : Nat) (items : List Node) : Read (List Node) :=
  match fuel with
  | 0 => failure
  | fuel + 1 => do
    let first := items.isEmpty
    if (← peek) == some .flowSequenceEnd then
      advance
      return items
    else
      if !first then
        if (← peek) == some .flowEntry then advance else failure
      match (← peek) with
      | some .flowSequenceEnd =>
        advance
        return items
      | some .key =>
        advance
        let entry ← pair fuel
        flowItems fuel (items ++ [.mapping [entry]])
      | _ =>
        let item ← node fuel false false
        flowItems fuel (items ++ [item])

-- An entry of a mapping as an item of a sequence. Where the key is left out, the token that shows
-- this is lost.
def pair (fuel : Nat) : Read (Node × Node) :=
  match fuel with
  | 0 => failure
  | fuel + 1 => do
    let key ←
      if (← peek).any [Token.value, .flowEntry, .flowSequenceEnd].contains then
        advance
        pure (Node.empty none)
      else node fuel false false
    if (← peek) == some .value then
      advance
      return (key, ← orEmpty [.flowEntry, .flowSequenceEnd] (node fuel false false))
    else return (key, .empty none)

def flowEntries (fuel : Nat) (entries : List (Node × Node)) : Read (List (Node × Node)) :=
  match fuel with
  | 0 => failure
  | fuel + 1 => do
    let first := entries.isEmpty
    if (← peek) == some .flowMappingEnd then
      advance
      return entries
    else
      if !first then
        if (← peek) == some .flowEntry then advance else failure
      match (← peek) with
      | some .flowMappingEnd =>
        advance
        return entries
      | some .key =>
        advance
        let key ← orEmpty [.value, .flowEntry, .flowMappingEnd] (node fuel false false)
        if (← peek) == some .value then
          advance
          let value ← orEmpty [.flowEntry, .flowMappingEnd] (node fuel false false)
          flowEntries fuel (entries ++ [(key, value)])
        else flowEntries fuel (entries ++ [(key, .empty none)])
      | _ =>
        let key ← node fuel false false
        flowEntries fuel (entries ++ [(key, .empty none)])

end

-- What handles stand for where no directive says otherwise.
def usualHandles : List (List Char × List Char) :=
  [("!".toList, "!".toList), ("!!".toList, "tag:yaml.org,2002:".toList)]

-- Reads the directives before a document. Each may be given once.
def directives (fuel : Nat) (versioned : Bool) (handles : List (List Char × List Char)) :
    Read Unit :=
  match fuel with
  | 0 => failure
  | fuel + 1 => do
    match (← peek) with
    | some .versionDirective =>
      advance
      if versioned then failure else directives fuel true handles
    | some (.tagDirective handle expansion) =>
      advance
      if (handles.lookup handle).isSome then failure
      else directives fuel versioned ((handle, expansion) :: handles)
    | _ => modify fun r => { r with handles := handles ++ usualHandles }

-- Reads the only document of a text.
def document (fuel : Nat) : Read Node := do
  match (← peek) with
  | none => return .empty none
  | some .versionDirective | some (.tagDirective _ _) | some .documentStart =>
    directives fuel false []
    if (← peek) == some .documentStart then
      advance
      match (← peek) with
      | none | some .versionDirective | some (.tagDirective _ _) | some .documentStart
      | some .documentEnd => return .empty none
      | _ => node fuel true false
    else failure
  | _ =>
    modify fun r => { r with handles := usualHandles }
    node fuel true false

end Read

namespace Document

-- Reads a text with at most one document.
def ofText? (text : String) : Option Document := do
  let tokens ← tokens? text
  let (root, r) ← (Read.document (3 * tokens.length + 3)).run ⟨tokens, [], [], [], [], 0⟩
  if r.tokens.all (· == .documentEnd) then return ⟨root, r.slots, r.anchored⟩ else none

end Document

end SyntaxStream.Yaml
