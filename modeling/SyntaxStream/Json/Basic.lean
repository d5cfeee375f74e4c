import SyntaxStream.Dict
import SyntaxStream.Json.Number

namespace SyntaxStream

-- A value of the notation in which results and requests travel.
inductive Json where
  | null
  | bool (b : Bool)
  | number (n : Json.Number)
  | string (s : String)
  | array (items : List Json)
  | object (entries : List (String × Json))
deriving Repr, Inhabited

namespace Json

def ofNat (n : Nat) : Json := .number (.integer n)

def ofOption {α : Type} (f : α → Json) : Option α → Json
  | none => null
  | some a => f a

private def hexDigit (n : Nat) : Char := Nat.digitChar (n % 16)

-- A character within quotes. Only quotes, backslashes and controls are escaped.
def escaped (c : Char) : List Char :=
  match c with
  | '"' => ['\\', '"']
  | '\\' => ['\\', '\\']
  | '\n' => ['\\', 'n']
  | '\r' => ['\\', 'r']
  | '\t' => ['\\', 't']
  | '\x08' => ['\\', 'b']
  | '\x0c' => ['\\', 'f']
  | _ =>
    if c.toNat < 0x20 then ['\\', 'u', '0', '0', hexDigit (c.toNat / 16), hexDigit c.toNat]
    else [c]

def quoted (s : String) : String :=
  String.ofList ('"' :: (s.toList.flatMap escaped ++ ['"']))

mutual

def compact : Json → String
  | null => "null"
  | bool b => if b then "true" else "false"
  | number n => n.render
  | string s => quoted s
  | array items => "[" ++ compactItems items ++ "]"
  | object entries => "\x7b" ++ compactEntries entries ++ "\x7d"

def compactItems : List Json → String
  | [] => ""
  | [item] => item.compact
  | item :: rest => item.compact ++ "," ++ compactItems rest

def compactEntries : List (String × Json) → String
  | [] => ""
  | [(key, value)] => quoted key ++ ":" ++ value.compact
  | (key, value) :: rest => quoted key ++ ":" ++ value.compact ++ "," ++ compactEntries rest

end

private def indent (depth : Nat) : String :=
  "\n" ++ String.ofList (List.replicate (2 * depth) ' ')

mutual

-- The text with one element a line, indented by two spaces a level.
def prettyAt (depth : Nat) : Json → String
  | null => "null"
  | bool b => if b then "true" else "false"
  | number n => n.render
  | string s => quoted s
  | array [] => "[]"
  | array (item :: rest) =>
    "[" ++ prettyItems (depth + 1) (item :: rest) ++ indent depth ++ "]"
  | object [] => "\x7b\x7d"
  | object (entry :: rest) =>
    "\x7b" ++ prettyEntries (depth + 1) (entry :: rest) ++ indent depth ++ "\x7d"

def prettyItems (depth : Nat) : List Json → String
  | [] => ""
  | [item] => indent depth ++ item.prettyAt depth
  | item :: rest => indent depth ++ item.prettyAt depth ++ "," ++ prettyItems depth rest

def prettyEntries (depth : Nat) : List (String × Json) → String
  | [] => ""
  | [(key, value)] => indent depth ++ quoted key ++ ": " ++ value.prettyAt depth
  | (key, value) :: rest =>
    indent depth ++ quoted key ++ ": " ++ value.prettyAt depth ++ "," ++ prettyEntries depth rest

end

def pretty (value : Json) : String := value.prettyAt 0

end Json

end SyntaxStream
