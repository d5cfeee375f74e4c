import SyntaxStream.Json.Basic

namespace SyntaxStream.Json

-- What stands in a text that should be a document but may not be one. Broken marks the place
-- where the text stops making sense; it is the last thing in everything that contains it. Invalid
-- is a value that is written correctly but stands for nothing: a number out of range, an escape
-- that names no character, or a container nested too deeply.
inductive Document where
  | null
  | bool (b : Bool)
  | number (n : Number)
  | string (s : String)
  | array (items : List Document)
  | object (entries : List (String × Document))
  | invalid
  | broken
deriving Repr, Inhabited

-- A lexical element. A string or number may stand for nothing.
inductive Lexeme where
  | punctuation (c : Char)
  | null
  | bool (b : Bool)
  | number (n : Option Number)
  | string (s : Option String)
deriving Repr, DecidableEq, Inhabited

namespace Lexeme

def isBlank (c : Char) : Bool := c == ' ' || c == '\n' || c == '\t' || c == '\r'

def hexValue? (c : Char) : Option Nat :=
  if '0' ≤ c ∧ c ≤ '9' then some (c.toNat - '0'.toNat)
  else if 'a' ≤ c ∧ c ≤ 'f' then some (c.toNat - 'a'.toNat + 10)
  else if 'A' ≤ c ∧ c ≤ 'F' then some (c.toNat - 'A'.toNat + 10)
  else none

def hexFour? (a b c d : Char) : Option Nat := do
  return 4096 * (← hexValue? a) + 256 * (← hexValue? b) + 16 * (← hexValue? c) + (← hexValue? d)

-- A unit of an escaped text: a character, or half of a pair that makes up one.
inductive Part where
  | char (c : Char)
  | half (n : Nat)
deriving Repr, DecidableEq

def escape? (c : Char) : Option Char :=
  match c with
  | '"' => some '"'
  | '\\' => some '\\'
  | '/' => some '/'
  | 'b' => some '\x08'
  | 'f' => some '\x0c'
  | 'n' => some '\n'
  | 'r' => some '\r'
  | 't' => some '\t'
  | _ => none

-- The inside of a string up to its closing quote, and the rest of the text.
def stringParts : List Char → Option (List Part × List Char)
  | [] => none
  | '"' :: rest => some ([], rest)
  | '\\' :: 'u' :: a :: b :: c :: d :: rest => do
    let n ← hexFour? a b c d
    let (parts, rest) ← stringParts rest
    return ((if 0xD800 ≤ n && n < 0xE000 then .half n else .char (Char.ofNat n)) :: parts, rest)
  | '\\' :: e :: rest => do
    let c ← escape? e
    let (parts, rest) ← stringParts rest
    return (.char c :: parts, rest)
  | c :: rest =>
    if c.toNat < 0x20 || c == '\\' then none
    else do
      let (parts, rest) ← stringParts rest
      return (.char c :: parts, rest)

-- Joins halves into characters; none if one half stands alone.
def joinParts : List Part → Option (List Char)
  | [] => some []
  | .char c :: rest => (joinParts rest).map (c :: ·)
  | .half high :: .half low :: rest =>
    if high < 0xDC00 && 0xDC00 ≤ low then
      (joinParts rest).map
        (Char.ofNat (0x10000 + (high - 0xD800) * 0x400 + (low - 0xDC00)) :: ·)
    else none
  | .half _ :: _ => none

def word (expected : List Char) (lexeme : Lexeme) (cs : List Char) :
    Option (Lexeme × List Char) :=
  if expected.isPrefixOf cs then some (lexeme, cs.drop expected.length) else none

-- The lexeme at the start of a text that does not start with a blank.
def next? (cs : List Char) : Option (Lexeme × List Char) :=
  match cs with
  | [] => none
  | c :: rest =>
    if "[]\x7b\x7d:,".toList.contains c then some (.punctuation c, rest)
    else if c == '"' then
      (stringParts rest).map fun (parts, rest) =>
        (.string ((joinParts parts).map String.ofList), rest)
    else if c == 'n' then word "null".toList .null cs
    else if c == 't' then word "true".toList (.bool true) cs
    else if c == 'f' then word "false".toList (.bool false) cs
    else (Number.read cs).map fun (n, rest) => (.number n, rest)

-- All lexemes, and whether they reach to the end of the text.
def all (cs : List Char) : List Lexeme × Bool :=
  match _h : cs.dropWhile isBlank with
  | [] => ([], true)
  | start =>
    match next? start with
    | none => ([], false)
    | some (lexeme, rest) =>
      if rest.length < cs.length then
        let (lexemes, complete) := all rest
        (lexeme :: lexemes, complete)
      else ([], false)
termination_by cs.length

end Lexeme

namespace Document

-- A container that is being read, with its elements so far in reverse. In an object a key may be
-- waiting for its value.
inductive Frame where
  | array (items : List Document)
  | object (entries : List (String × Document)) (key : Option String)
deriving Repr, Inhabited

inductive Expected where
  | value
  | valueOrClose
  | key
  | keyOrClose
  | colon
  | commaOrClose
  | nothing
deriving Repr, DecidableEq, Inhabited

-- Containers may be nested up to this depth.
def depthLimit : Nat := 127

structure State where
  frames : List Frame
  expected : Expected
  root : Option Document
deriving Repr, Inhabited

def State.start : State := ⟨[], .value, none⟩

def State.put (s : State) (value : Document) : State :=
  match s.frames with
  | [] => ⟨[], .nothing, some value⟩
  | .array items :: rest => ⟨.array (value :: items) :: rest, .commaOrClose, s.root⟩
  | .object entries key :: rest =>
    ⟨.object ((key.getD "", value) :: entries) none :: rest, .commaOrClose, s.root⟩

def Frame.close : Frame → Document
  | .array items => .array items.reverse
  | .object entries _ => .object entries.reverse

-- Closes the innermost container. One that is nested too deeply stands for nothing.
def State.pop (s : State) : State :=
  match s.frames with
  | [] => s
  | frame :: rest =>
    State.put { s with frames := rest }
      (if depthLimit < s.frames.length then .invalid else frame.close)

-- What has been read when the text breaks off.
def State.breakOff (s : State) : Document :=
  s.frames.foldl (fun inner frame =>
    match frame with
    | .array items => .array (inner :: items).reverse
    | .object entries key => .object ((key.getD "", inner) :: entries).reverse) .broken

def State.takesValue (s : State) : Bool := s.expected == .value || s.expected == .valueOrClose

-- Reads one lexeme; none if it may not stand here.
def State.step (s : State) (lexeme : Lexeme) : Option State :=
  match lexeme with
  | .null => if s.takesValue then some (s.put .null) else none
  | .bool b => if s.takesValue then some (s.put (.bool b)) else none
  | .number n => if s.takesValue then some (s.put (n.elim .invalid .number)) else none
  | .string text =>
    if s.takesValue then some (s.put (text.elim .invalid .string))
    else if s.expected == .key || s.expected == .keyOrClose then
      match text, s.frames with
      | some key, .object entries _ :: rest =>
        some { s with frames := .object entries (some key) :: rest, expected := .colon }
      | _, _ => none
    else none
  | .punctuation c =>
    match c, s.expected, s.frames with
    | '[', .value, frames => some { s with frames := .array [] :: frames, expected := .valueOrClose }
    | '[', .valueOrClose, frames =>
      some { s with frames := .array [] :: frames, expected := .valueOrClose }
    | '\x7b', .value, frames =>
      some { s with frames := .object [] none :: frames, expected := .keyOrClose }
    | '\x7b', .valueOrClose, frames =>
      some { s with frames := .object [] none :: frames, expected := .keyOrClose }
    | ']', .valueOrClose, _ => some s.pop
    | ']', .commaOrClose, .array _ :: _ => some s.pop
    | '\x7d', .keyOrClose, _ => some s.pop
    | '\x7d', .commaOrClose, .object _ _ :: _ => some s.pop
    | ',', .commaOrClose, .array _ :: _ => some { s with expected := .value }
    | ',', .commaOrClose, .object _ _ :: _ => some { s with expected := .key }
    | ':', .colon, _ => some { s with expected := .value }
    | _, _, _ => none

-- A document, and whether nothing but blanks follows it.
def build (complete : Bool) (s : State) : List Lexeme → Document × Bool
  | [] =>
    match s.root with
    | some root => (root, complete)
    | none => (s.breakOff, true)
  | lexeme :: rest =>
    match s.root with
    | some root => (root, false)
    | none =>
      match s.step lexeme with
      | some s => build complete s rest
      | none => (s.breakOff, true)

-- Reads a text.
def ofText (text : String) : Document × Bool :=
  let (lexemes, complete) := Lexeme.all text.toList
  build complete .start lexemes

mutual

def ofJson : Json → Document
  | .null => .null
  | .bool b => .bool b
  | .number n => .number n
  | .string s => .string s
  | .array items => .array (ofItems items)
  | .object entries => .object (ofEntries entries)

def ofItems : List Json → List Document
  | [] => []
  | item :: rest => ofJson item :: ofItems rest

def ofEntries : List (String × Json) → List (String × Document)
  | [] => []
  | (key, value) :: rest => (key, ofJson value) :: ofEntries rest

end

end Document

end SyntaxStream.Json
