import SyntaxStream.Markdown.Cursor

namespace SyntaxStream.Markdown

-- What follows a line that consists of three or more of one sign, with blanks anywhere.
def thematicBreak? (cs : List Char) : Option (List Char) :=
  match cs with
  | [] => none
  | sign :: _ =>
    if sign == '*' || sign == '-' || sign == '_' then
      let line := cs.takeWhile fun c => c == sign || c == ' ' || c == '\t'
      let rest := cs.drop line.length
      if 3 ≤ line.count sign then lineEnd? rest else none
    else none

-- Whether a heading starts here: one to six number signs before a blank.
def isHeading (cs : List Char) : Bool :=
  let signs := (cs.takeWhile (· == '#')).length
  1 ≤ signs && signs ≤ 6 && (match cs.drop signs with
    | [] => true
    | c :: _ => isSpace c)

-- What follows an underline that turns the paragraph above it into a heading.
def underline? (cs : List Char) : Option (List Char) :=
  match cs with
  | '=' :: _ => blankLine? (cs.dropWhile (· == '='))
  | '-' :: _ => blankLine? (cs.dropWhile (· == '-'))
  | _ => none

structure Fence where
  sign : Char
  length : Nat
deriving Repr, DecidableEq, Inhabited

-- The fence that starts here. The rest of a line with a fence of backticks has no backtick.
def fence? (cs : List Char) : Option Fence :=
  match cs with
  | [] => none
  | sign :: _ =>
    let length := (cs.takeWhile (· == sign)).length
    if length < 3 then none
    else if sign == '~' then some ⟨sign, length⟩
    else if sign.toNat == 0x60 && !(thisLine (cs.drop length)).contains sign then
      some ⟨sign, length⟩
    else none

-- What follows a fence that closes another, up to the end of the line. The end of the text closes
-- every fence.
def closingFence? (fence : Fence) (cs : List Char) : Option (List Char) :=
  if cs.isEmpty then some []
  else
    let length := (cs.takeWhile (· == fence.sign)).length
    let rest := (cs.drop length).dropWhile (· == ' ')
    if fence.length ≤ length && atLineEnd rest then some rest else none

-- A list marker: its sign, its number, and the columns a line of the item has to be indented by.
structure Marker where
  sign : Char
  number : Nat
  indent : Nat
deriving Repr, DecidableEq, Inhabited

namespace Marker

-- The columns between the marker and the text belong to the indentation, unless there are so many
-- that the text is indented code.
def finish (marker : Marker) (c : Cursor) : Marker × Cursor :=
  if isBlankLine c.rest then (marker, c)
  else
    let (columns, after) := c.skipUpTo 4
    if columns < 4 then ({ marker with indent := marker.indent + columns }, after)
    else (marker, c)

-- Passes over the space that has to follow a marker.
def space? (c : Cursor) : Option Cursor :=
  let (found, after) := c.skipAll 1
  if found || after.atEnd then some after else none

def digits (cs : List Char) : List Char := cs.takeWhile fun c => '0' ≤ c && c ≤ '9'

def numberOf (digits : List Char) : Nat :=
  digits.foldl (fun n c => 10 * n + (c.toNat - '0'.toNat)) 0

def isBullet (c : Char) : Bool := c == '-' || c == '+' || c == '*'

def isDelimiter (c : Char) : Bool := c == '.' || c == ')'

-- The marker that starts here, behind some columns of indentation. A thematic break is none.
def read? (indent : Nat) (c : Cursor) : Option (Marker × Cursor) :=
  match c.rest with
  | [] => none
  | sign :: _ =>
    if isBullet sign then
      if (thematicBreak? c.rest).isSome then none
      else (space? (c.advance 1)).map fun c => finish ⟨sign, 0, indent + 2⟩ c
    else
      let ds := digits c.rest
      if ds.isEmpty || 9 < ds.length then none
      else match c.rest.drop ds.length with
        | [] => none
        | delimiter :: _ =>
          if isDelimiter delimiter then
            (space? (c.advance (ds.length + 1))).map fun c =>
              finish ⟨delimiter, numberOf ds, indent + ds.length + 2⟩ c
          else none

-- The sign and number of a marker within a paragraph, and what follows it.
def atLine? (cs : List Char) : Option (Char × Nat × List Char) :=
  let complete (sign : Char) (number : Nat) (rest : List Char) :=
    match rest with
    | ' ' :: _ => some (sign, number, rest)
    | '\t' :: _ => some (sign, number, rest)
    | _ => if atLineEnd rest then some (sign, number, rest) else none
  match cs with
  | [] => none
  | sign :: rest =>
    if isBullet sign then complete sign 0 rest
    else
      let ds := (digits cs).take 9
      if ds.isEmpty then none
      else match cs.drop ds.length with
        | [] => none
        | delimiter :: rest =>
          if isDelimiter delimiter then complete delimiter (numberOf ds) rest else none

-- Whether nothing but blanks stands on this line and the next.
def startsEmpty (cs : List Char) : Bool :=
  match blankLine? cs with
  | some rest => isBlankLine rest
  | none => false

end Marker

-- The sign of a task, with the blank that has to follow it still to come.
def taskSign? (c : Cursor) : Option Cursor :=
  let (_, start) := c.skipUpTo 3
  match start.rest with
  | '[' :: mark :: ']' :: next :: _ =>
    if (isGap mark || mark == 'x' || mark == 'X') && isGap next then some (start.advance 3)
    else none
  | _ => none

-- How many columns the line under the head of a table announces, and what follows that line.
structure TableRule where
  columns : Nat
  rest : List Char
deriving Repr, DecidableEq, Inhabited

namespace TableRule

structure Progress where
  columns : Nat
  -- whether nothing of the current column has been seen
  fresh : Bool
  -- whether there is a hyphen in the current column
  ruled : Bool
  anyPipe : Bool
  anyHyphen : Bool
deriving Repr, DecidableEq, Inhabited

def finish (p : Progress) (rest : List Char) : Option TableRule :=
  if p.anyPipe && p.anyHyphen then some ⟨if p.fresh then p.columns else p.columns + 1, rest⟩
  else none

def scan (p : Progress) (cs : List Char) : Option TableRule :=
  match cs with
  | [] => finish p []
  | c :: rest =>
    if c == '\n' || c == '\r' then finish p ((lineEnd? (c :: rest)).getD [])
    else if c == ' ' then scan p rest
    else if c == ':' then scan { p with fresh := false } rest
    else if c == '-' then scan { p with fresh := false, ruled := true, anyHyphen := true } rest
    else if c == '|' then
      if p.ruled then
        scan { p with columns := p.columns + 1, fresh := true, ruled := false, anyPipe := true }
          rest
      else none
    else none

def read? (cs : List Char) : Option TableRule :=
  let (columns, _) := (Cursor.ofRest cs).skipUpTo 4
  if 3 < columns || cs.isEmpty then none
  else match cs.dropWhile (· == ' ') with
    | '|' :: rest => scan ⟨0, true, false, true, false⟩ rest
    | _ => scan ⟨0, true, false, false, false⟩ cs

end TableRule

-- The pipes of a line that are not escaped, and the text after the last of them.
def linePipes : List Char → Nat × Option (List Char)
  | [] => (0, none)
  | '\n' :: _ => (0, none)
  | '\r' :: _ => (0, none)
  | '\\' :: c :: rest =>
    if isPunctuation c then linePipes rest else linePipes (c :: rest)
  | '|' :: rest =>
    let (pipes, tail) := linePipes rest
    (pipes + 1, some (tail.getD rest))
  | _ :: rest => linePipes rest

-- The number of cells in the head of a table; none if the line has no pipe.
def headCells? (cs : List Char) : Option Nat :=
  match linePipes cs with
  | (_, none) => none
  | (pipes, some tail) =>
    let inner := if (skipGaps cs).head? == some '|' then pipes - 1 else pipes
    some (if isBlankLine tail then inner else inner + 1)

end SyntaxStream.Markdown
