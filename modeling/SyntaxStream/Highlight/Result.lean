import SyntaxStream.Json.Basic

namespace SyntaxStream

inductive Node where
  | text (value : String)
  | element (tag : String) (properties : Dict Json) (children : List Node)
deriving Inhabited

-- A highlighted block: the tree of its lines, and the class and style of the element around it.
structure HighlightResult where
  tree : List Node
  className : String
  style : String
deriving Inhabited

namespace Html

-- Characters that would be read as markup are written by their names.
def escapeChar (c : Char) : List Char :=
  match c with
  | '&' => "&amp;".toList
  | '<' => "&lt;".toList
  | '>' => "&gt;".toList
  | '"' => "&quot;".toList
  | _ => [c]

def escape (s : String) : String :=
  String.ofList (s.toList.flatMap escapeChar)

-- The value of a property. Only a string stands for itself.
def propertyText : Json → String
  | .string s => s
  | value => value.compact

def propertyMarkup (entry : String × Json) : String :=
  " " ++ entry.1 ++ "=\"" ++ escape (propertyText entry.2) ++ "\""

end Html

namespace Node

mutual

def textContent : Node → String
  | text value => value
  | element _ _ children => contentOf children

def contentOf : List Node → String
  | [] => ""
  | node :: rest => node.textContent ++ contentOf rest

end

mutual

def toHtml : Node → String
  | text value => Html.escape value
  | element tag properties children =>
    "<" ++ tag ++ String.join (properties.entries.map Html.propertyMarkup) ++ ">" ++
      htmlOf children ++ "</" ++ tag ++ ">"

def htmlOf : List Node → String
  | [] => ""
  | node :: rest => node.toHtml ++ htmlOf rest

end

def isText : Node → Bool
  | text _ => true
  | element _ _ _ => false

end Node

namespace HighlightResult

def plain (code : String) : HighlightResult where
  tree := [.text code]
  className := ""
  style := ""

def isPlain (r : HighlightResult) : Bool :=
  r.className.isEmpty && r.style.isEmpty && r.tree.length == 1 && r.tree.all Node.isText

def textContent (r : HighlightResult) : String := Node.contentOf r.tree

def toHtml (r : HighlightResult) : String :=
  "<pre class=\"" ++ Html.escape r.className ++ "\" style=\"" ++ Html.escape r.style ++
    "\"><code>" ++ Node.htmlOf r.tree ++ "</code></pre>"

end HighlightResult

end SyntaxStream
