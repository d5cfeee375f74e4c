namespace SyntaxStream.Scope

-- The vocabulary of highlights. The position of a name is its number.
def names : List String := [
  "attribute", "boolean", "comment", "comment.documentation", "constant", "constant.builtin",
  "constructor", "escape", "function", "function.builtin", "function.macro", "function.method",
  "keyword", "keyword.return", "keyword.function", "keyword.operator", "label", "module",
  "number", "operator", "property", "punctuation", "punctuation.bracket",
  "punctuation.delimiter", "punctuation.special", "string", "string.special", "tag", "type",
  "type.builtin", "variable", "variable.builtin", "variable.parameter"]

-- What remains of a reversed name at each of its dots, the last dot first.
def cuts : List Char → List (List Char)
  | [] => []
  | '.' :: rest => rest.reverse :: cuts rest
  | _ :: rest => cuts rest

-- A name, the name cut at its last dot, that cut at its last dot, and so on.
def ancestors (name : String) : List String :=
  name :: (cuts name.toList.reverse).map String.ofList

-- The number of the nearest ancestor in the vocabulary.
def number? (name : String) : Option Nat :=
  (ancestors name).findSome? names.idxOf?

def name? (n : Nat) : Option String :=
  names[n]?

end SyntaxStream.Scope
