import SyntaxStream.Json.Basic
import SyntaxStream.Token

namespace SyntaxStream

def Color.toJson (c : Color) : Json := .string c.toHex

-- A field that is left out when there is nothing to say.
def Json.optionalField {α : Type} (name : String) (f : α → Json) : Option α → List (String × Json)
  | none => []
  | some a => [(name, f a)]

-- An absent scope or color is left out.
def Token.toJson (t : Token) : Json :=
  .object ([("content", .string t.content), ("offset", .ofNat t.offset)] ++
    Json.optionalField "scope" .string t.scope ++ Json.optionalField "color" Color.toJson t.color)

def Batch.toJson : Batch → Json
  | .tokens added => .object [("tokens", .array (added.map Token.toJson))]
  | .retract count => .object [("recall", .ofNat count)]

def Span.toJson (s : Span) : Json :=
  .object [("start", .ofNat s.start), ("end", .ofNat s.stop),
    ("highlight", .ofOption .ofNat s.highlight)]

end SyntaxStream
