import SyntaxStream.Highlight.Request
import SyntaxStream.Highlight.Result
import SyntaxStream.Token

namespace SyntaxStream.Render

abbrev NamedTheme := String × Theme

-- The style of a token. The primary theme gives its color, every other theme a variable.
def tokenStyle (themes : List NamedTheme) (token : Token) : String :=
  match themes with
  | [] => ""
  | (_, primary) :: others =>
    ";".intercalate <|
      ("color:" ++ (token.color.getD primary.foreground).toHex) ::
      others.map fun (variant, theme) =>
        "--mdc-" ++ variant ++ ":" ++ (theme.colorForScope token.scope).toHex

def wrapperStyle (themes : List NamedTheme) : String :=
  match themes with
  | [] => ""
  | (_, primary) :: others =>
    ";".intercalate <|
      ("background-color:" ++ primary.background.toHex ++
        ";color:" ++ primary.foreground.toHex) ::
      others.map fun (variant, theme) =>
        "--mdc-" ++ variant ++ "-bg:" ++ theme.background.toHex ++
          ";--mdc-" ++ variant ++ ":" ++ theme.foreground.toHex

def wrapperClass (themes : List NamedTheme) : String :=
  " ".intercalate ("shiki" :: (themes.map (·.2.id)).eraseDups)

-- A token without a scope is plain text.
def tokenNode (themes : List NamedTheme) (token : Token) : Node :=
  if token.scope.isNone then .text token.content
  else
    .element "span" (Dict.ofList [("style", .string (tokenStyle themes token))])
      [.text token.content]

-- The tokens of each line. Tokens that are newlines end a line and belong to none.
def tokenLines : List Token → List (List Token)
  | [] => [[]]
  | token :: rest =>
    if token.content == "\n" then [] :: tokenLines rest
    else match tokenLines rest with
      | line :: lines => (token :: line) :: lines
      | [] => [[token]]

def lineClass (options : HighlightOptions) (number : Nat) : String :=
  if options.highlights.contains number then "line highlight" else "line"

def lineNode (themes : List NamedTheme) (options : HighlightOptions)
    (line : List Token × Nat) : Node :=
  .element "span"
    (Dict.ofList [("class", .string (lineClass options line.2)), ("line", .ofNat line.2)])
    (line.1.map (tokenNode themes))

-- The lines with their numbers, and a newline between any two of them.
def tree (themes : List NamedTheme) (options : HighlightOptions) (tokens : List Token) :
    List Node :=
  (((tokenLines tokens).zipIdx 1).map (lineNode themes options)).intersperse (.text "\n")

-- The themes are given with the primary one first.
def result (themes : List NamedTheme) (options : HighlightOptions) (tokens : List Token) :
    HighlightResult where
  tree := tree themes options tokens
  className := wrapperClass themes
  style := wrapperStyle themes

end SyntaxStream.Render
