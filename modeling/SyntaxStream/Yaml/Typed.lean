import SyntaxStream.Dict
import SyntaxStream.Yaml.Node

namespace SyntaxStream.Yaml

namespace Scalar

def isNullWord (text : List Char) : Bool :=
  ["null", "Null", "NULL", "~"].any (·.toList == text)

-- The value of a truth value in one of its notations.
def boolWord? (text : List Char) : Option Bool :=
  if ["true", "True", "TRUE"].any (·.toList == text) then some true
  else if ["false", "False", "FALSE"].any (·.toList == text) then some false
  else none

-- Whether a sequence of digits starts with a zero that does not stand alone.
def hasLeadingZero (digits : List Char) : Bool :=
  2 ≤ digits.length && digits.head? == some '0' && digits.all Char.isDigit

-- The value of a numeral below a bound: decimal, or in another base with its mark. A plus sign
-- may stand before it.
def natural? (bound : Nat) (text : List Char) : Option Nat :=
  let body := match text with
    | '+' :: rest => rest
    | _ => text
  let read (base : Nat) (digits : List Char) : Option Nat :=
    if digits.isEmpty then none else (Text.digits? base digits).filter (· < bound)
  match body with
  | '0' :: 'x' :: rest => read 16 rest
  | '0' :: 'o' :: rest => read 8 rest
  | '0' :: 'b' :: rest => read 2 rest
  | _ => if hasLeadingZero body then none else read 10 body

-- Whether a scalar may stand for a value that is not text: plain ones may, literal ones if they
-- have the tag.
def isUntyped (s : Scalar) (tag : String) : Bool :=
  s.style == .plain || (s.style == .literal && s.tag == some tag.toList)

-- Whether a scalar stands for null. With the tag of null it has to.
def isNull? (s : Scalar) : Option Bool :=
  if s.style != .plain then some false
  else match s.tag with
    | some tag =>
      if tag != "tag:yaml.org,2002:null".toList then some false
      else if isNullWord s.text then some true
      else none
    | none => some (s.text.isEmpty || isNullWord s.text)

end Scalar

-- A field of a record, and how its value changes what is known of the record.
structure RecordField (α : Type) where
  name : String
  put : α → Document → Node → Option α

namespace Document

variable {α : Type}

def scalar? (d : Document) (node : Node) : Option Scalar :=
  match d.resolve? node with
  | some (.scalar s) => some s
  | _ => none

-- Every scalar is text.
def string? (d : Document) (node : Node) : Option String :=
  (d.scalar? node).map fun s => String.ofList s.text

def bool? (d : Document) (node : Node) : Option Bool := do
  let s ← d.scalar? node
  if s.isUntyped "tag:yaml.org,2002:bool" then Scalar.boolWord? s.text else none

def natural? (d : Document) (bound : Nat) (node : Node) : Option Nat := do
  let s ← d.scalar? node
  if s.isUntyped "tag:yaml.org,2002:int" then Scalar.natural? bound s.text else none

-- Text, or nothing where null is written.
def optionalString? (d : Document) (node : Node) : Option (Option String) := do
  match d.scalar? node with
  | some s => return if ← s.isNull? then none else some (String.ofList s.text)
  | none => none

-- The entries of a mapping. Where nothing is written there are none.
def entries? (d : Document) (node : Node) : Option (List (Node × Node)) :=
  match d.resolve? node with
  | some (.mapping entries) => some entries
  | some (.scalar s) => if s.style == .plain && s.text.isEmpty then some [] else none
  | _ => none

def dict? (d : Document) (node : Node) : Option (Dict String) := do
  let entries ← (← d.entries? node).mapM fun (key, value) =>
    return (← d.string? key, ← d.string? value)
  return Dict.ofList entries

-- Reads the fields in the order of the text. No field may come twice; one that is not of the
-- record is passed over.
def readEntries? (d : Document) (fields : List (RecordField α)) (seen : List String) (a : α) :
    List (Node × Node) → Option α
  | [] => some a
  | (key, value) :: rest =>
    match d.string? key with
    | none => none
    | some name =>
      match fields.find? (·.name == name) with
      | none => d.readEntries? fields seen a rest
      | some field =>
        if seen.contains name then none
        else match field.put a d value with
          | some a => d.readEntries? fields (name :: seen) a rest
          | none => none

def record? (d : Document) (fields : List (RecordField α)) (start : α) (node : Node) : Option α :=
  (d.entries? node).bind (d.readEntries? fields [] start)

end Document

end SyntaxStream.Yaml
