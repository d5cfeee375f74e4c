import SyntaxStream.Markdown.Cursor
import SyntaxStream.Markdown.EntityTable
import SyntaxStream.Text.Blank
import SyntaxStream.Text.Natural

namespace SyntaxStream.Markdown

namespace Entity

-- The character with a code point. There is no character zero.
def charOf? (n : Nat) : Option Char :=
  if n = 0 then some '\ufffd'
  else if n.isValidChar then some (Char.ofNat n)
  else none

-- The code points of an entry of the table.
def pointsOf (word : List Char) : List Char :=
  (Text.splitAll (· == '.') word).filterMap fun digits =>
    (Text.digits? 16 digits).map Char.ofNat

-- The entry of a name in a list of alternating names and code points.
def lookupIn (name : List Char) : List (List Char) → Option (List Char)
  | key :: points :: rest => if key = name then some (pointsOf points) else lookupIn name rest
  | _ => none

def named? (name : List Char) : Option (List Char) :=
  entityLines.findSome? fun line => lookupIn name (Text.splitAll (· == ' ') line.toList)

-- A character by its number: at most seven decimal or six hexadecimal digits.
def numbered? (cs : List Char) : Option (List Char × List Char) :=
  let (base, limit, body) := match cs with
    | 'x' :: rest => (16, 6, rest)
    | 'X' :: rest => (16, 6, rest)
    | _ => (10, 7, cs)
  let digits := (body.take limit).takeWhile fun c => (Text.digitIn? base c).isSome
  match digits.isEmpty, body.drop digits.length with
  | false, ';' :: rest =>
    ((Text.digits? base digits).bind charOf?).map fun c => ([c], rest)
  | _, _ => none

-- The characters of an entity whose ampersand has been read, and what follows it.
def read? (cs : List Char) : Option (List Char × List Char) :=
  match cs with
  | '#' :: rest => numbered? rest
  | _ =>
    let name := cs.takeWhile Char.isAlphanum
    match cs.drop name.length with
    | ';' :: rest => (named? name).map fun value => (value, rest)
    | _ => none

end Entity

-- Replaces escapes and entities in a text by what they stand for. Carriage returns are dropped.
-- The first argument counts characters that have been taken as part of an entity.
def unescapeFrom (skipped : Nat) : List Char → List Char
  | [] => []
  | c :: rest =>
    match skipped with
    | n + 1 => unescapeFrom n rest
    | 0 =>
      if c == '\\' then
        match rest with
        | next :: rest' =>
          if isPunctuation next then next :: unescapeFrom 0 rest'
          else c :: unescapeFrom 0 (next :: rest')
        | [] => [c]
      else if c == '&' then
        match Entity.read? rest with
        | some (value, after) => value ++ unescapeFrom (rest.length - after.length) rest
        | none => c :: unescapeFrom 0 rest
      else if c == '\r' then unescapeFrom 0 rest
      else c :: unescapeFrom 0 rest

def unescape (cs : List Char) : List Char := unescapeFrom 0 cs

end SyntaxStream.Markdown
