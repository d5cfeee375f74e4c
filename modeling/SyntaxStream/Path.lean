import SyntaxStream.Language

namespace SyntaxStream.Path

-- A path below another one. A path that starts at the root stays as it is.
def join (base path : String) : String :=
  if base.isEmpty || path.startsWith "/" then path
  else if base.endsWith "/" then base ++ path
  else base ++ "/" ++ path

-- The names on the way, without those that lead nowhere.
def components (path : String) : List (List Char) :=
  (Text.splitAll (· == '/') path.toList).filter fun name => !(name.isEmpty || name == ['.'])

-- The name of the file, if the path does not lead upwards.
def fileName? (path : String) : Option (List Char) :=
  match (components path).getLast? with
  | some ['.', '.'] => none
  | name => name

-- What follows the last dot of the name of the file. A dot at the start of a name counts for
-- nothing.
def extension? (path : String) : Option String := do
  let name ← fileName? path
  let ending := name.reverse.takeWhile (· != '.')
  guard (ending.length + 1 < name.length)
  return String.ofList ending.reverse

end SyntaxStream.Path

namespace SyntaxStream.Language

def ofPath (path : String) : Language :=
  match Path.extension? path with
  | some ext => ofExtension ext
  | none => plainText

end SyntaxStream.Language
