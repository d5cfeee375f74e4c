import SyntaxStream.Text.Blank

namespace SyntaxStream

inductive Language where
  | plainText | rust | python | go | c | cpp | java | bash
deriving Repr, DecidableEq, Inhabited

namespace Language

-- Every language with a grammar, in the order in which they are listed.
def grammars : List Language := [rust, python, go, c, cpp, java, bash]

-- Only plain text has no grammar.
def hasGrammar : Language → Bool
  | plainText => false
  | _ => true

def name : Language → String
  | plainText => "text"
  | rust => "rust"
  | python => "python"
  | go => "go"
  | c => "c"
  | cpp => "cpp"
  | java => "java"
  | bash => "bash"

-- The name under which diagnostics show a language.
def label : Language → String
  | plainText => "PlainText"
  | rust => "Rust"
  | python => "Python"
  | go => "Go"
  | c => "C"
  | cpp => "Cpp"
  | java => "Java"
  | bash => "Bash"

-- Every name a language can be asked for by.
def aliases : Language → List String
  | plainText => ["", "text", "txt", "plain", "plaintext"]
  | rust => ["rust", "rs"]
  | python => ["python", "py"]
  | go => ["go", "golang"]
  | c => ["c", "h"]
  | cpp => ["cpp", "c++", "cc", "cxx", "hpp"]
  | java => ["java"]
  | bash => ["bash", "sh", "shell", "zsh"]

def extensions : Language → List String
  | plainText => []
  | rust => ["rs"]
  | python => ["py", "pyi"]
  | go => ["go"]
  | c => ["c", "h"]
  | cpp => ["cpp", "cc", "cxx", "hpp", "hh"]
  | java => ["java"]
  | bash => ["sh", "bash", "zsh"]

def all : List Language := plainText :: grammars

-- The language of a name, whatever its case and the blanks around it.
-- Small letters of ASCII suffice: no other character has a small form among the names.
def ofName? (name : String) : Option Language :=
  let key := Text.lowercase (Text.strip name)
  all.find? (·.aliases.contains key)

-- The language of a file extension in any case; an unknown one means plain text.
def ofExtension (ext : String) : Language :=
  let key := Text.lowercase ext
  (grammars.find? (·.extensions.contains key)).getD plainText

end Language

end SyntaxStream
