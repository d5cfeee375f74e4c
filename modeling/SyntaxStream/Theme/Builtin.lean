import SyntaxStream.Theme.Basic

namespace SyntaxStream

namespace Theme

private def githubDark : ThemeData where
  version := 1
  name := "GitHub Dark"
  author := some "GitHub"
  description := some "Dark theme following the GitHub code view palette"
  background := "#24292E"
  foreground := "#E1E4E8"
  scopes := Dict.ofList [
    ("attribute", "#B392F0"), ("boolean", "#79B8FF"), ("comment", "#6A737D"),
    ("constant", "#79B8FF"), ("constructor", "#B392F0"), ("escape", "#79B8FF"),
    ("function", "#B392F0"), ("function.macro", "#B392F0"), ("keyword", "#F97583"),
    ("label", "#FFAB70"), ("module", "#FFAB70"), ("number", "#79B8FF"),
    ("operator", "#F97583"), ("property", "#79B8FF"), ("punctuation", "#E1E4E8"),
    ("string", "#9ECBFF"), ("string.special", "#DBEDFF"), ("tag", "#85E89D"),
    ("type", "#B392F0"), ("type.builtin", "#79B8FF"), ("variable", "#E1E4E8"),
    ("variable.builtin", "#79B8FF"), ("variable.parameter", "#FFAB70")]

private def githubLight : ThemeData where
  version := 1
  name := "GitHub Light"
  author := some "GitHub"
  description := some "Light theme following the GitHub code view palette"
  background := "#FFFFFF"
  foreground := "#24292E"
  scopes := Dict.ofList [
    ("attribute", "#6F42C1"), ("boolean", "#005CC5"), ("comment", "#6A737D"),
    ("constant", "#005CC5"), ("constructor", "#6F42C1"), ("escape", "#005CC5"),
    ("function", "#6F42C1"), ("keyword", "#D73A49"), ("label", "#E36209"),
    ("module", "#E36209"), ("number", "#005CC5"), ("operator", "#D73A49"),
    ("property", "#005CC5"), ("punctuation", "#24292E"), ("string", "#032F62"),
    ("string.special", "#22863A"), ("tag", "#22863A"), ("type", "#6F42C1"),
    ("type.builtin", "#005CC5"), ("variable", "#24292E"), ("variable.builtin", "#005CC5"),
    ("variable.parameter", "#E36209")]

private def defaultDark : ThemeData where
  version := 1
  name := "Default Dark"
  author := none
  description := some "Neutral dark palette"
  background := "#1E1E1E"
  foreground := "#D4D4D4"
  scopes := Dict.ofList [
    ("attribute", "#4EC9B0"), ("boolean", "#569CD6"), ("comment", "#6A9955"),
    ("constant", "#4FC1FF"), ("constructor", "#4EC9B0"), ("escape", "#D7BA7D"),
    ("function", "#DCDCAA"), ("keyword", "#569CD6"), ("keyword.return", "#C586C0"),
    ("label", "#C8C8C8"), ("number", "#B5CEA8"), ("operator", "#D4D4D4"),
    ("property", "#9CDCFE"), ("string", "#CE9178"), ("tag", "#569CD6"), ("type", "#4EC9B0"),
    ("variable", "#9CDCFE"), ("variable.parameter", "#9CDCFE")]

-- The themes that are always there, in the order in which they are listed.
def builtins : List (String × ThemeData) :=
  [("github-dark", githubDark), ("github-light", githubLight), ("default-dark", defaultDark)]

def builtinIds : List String := builtins.map (·.1)

def ofBuiltin (id : String) : Except ThemeError Theme :=
  match builtins.lookup id with
  | some data => ofData id data
  | none => .error (.unknownId id)

-- The theme used when nothing else is asked for.
def fallback : Theme :=
  match ofBuiltin fallbackId with
  | .ok theme => theme
  | .error _ => {
      id := fallbackId
      name := githubDark.name
      background := ⟨0x24, 0x29, 0x2E, 255⟩
      foreground := ⟨0xE1, 0xE4, 0xE8, 255⟩
      colors := Scope.names.map fun _ => none }

end Theme

end SyntaxStream
