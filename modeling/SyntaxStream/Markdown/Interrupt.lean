import SyntaxStream.Markdown.Container
import SyntaxStream.Markdown.Markup
import SyntaxStream.Markdown.Scan

namespace SyntaxStream.Markdown

-- A label holds less than this many characters.
def labelLimit : Nat := 1000

-- What is known of a label while it is read.
structure LabelState where
  count : Nat
  -- whether there is anything but blanks
  visible : Bool
  -- whether the latest blanks contain the end of a line
  lineEnded : Bool
deriving Repr, DecidableEq, Inhabited

-- What follows the bracket that closes a label. A function passes over the start of a line, if the
-- label may go on there.
def labelEnd? (startOfLine : List Char → Option (List Char)) (fuel : Nat) (s : LabelState)
    (cs : List Char) : Option (List Char) :=
  match fuel with
  | 0 => none
  | fuel + 1 =>
    if labelLimit ≤ s.count then none
    else match cs with
      | [] => none
      | c :: rest =>
        if c == '[' then none
        else if c == ']' then if s.visible then some rest else none
        else if c == '\\' then
          labelEnd? startOfLine fuel { s with count := s.count + 2, lineEnded := false }
            (rest.drop 1)
        else if isSpace c then
          match lineEnd? cs with
          | some after =>
            if s.lineEnded then none
            else (startOfLine after).bind fun rest =>
              labelEnd? startOfLine fuel { s with count := s.count + 1, lineEnded := true } rest
          | none => labelEnd? startOfLine fuel { s with count := s.count + 1 } rest
        else labelEnd? startOfLine fuel ⟨s.count + 1, true, false⟩ rest

def label? (startOfLine : List Char → Option (List Char)) (cs : List Char) : Option (List Char) :=
  labelEnd? startOfLine (cs.length + 1) ⟨0, false, false⟩ cs

-- What follows the label of a footnote and the colon after it. The label stands on one line.
def footnoteLabel? (cs : List Char) : Option (List Char) :=
  match cs with
  | '[' :: '^' :: rest =>
    match label? (fun _ => none) rest with
    | some (':' :: after) => some after
    | _ => none
  | _ => none

-- Whether an item of a list that starts here ends a paragraph. Within the containers of the
-- paragraph it has to have text, and the first number if it has one.
def listInterrupts (inTable current : Bool) (cs : List Char) : Bool :=
  match Marker.atLine? cs with
  | none => false
  | some (sign, number, rest) =>
    !current || inTable || ((Marker.isBullet sign || number == 1) && !Marker.startsEmpty rest)

-- Whether a line ends the paragraph or table before it, tables aside. It is known whether the line
-- goes on in the containers of the paragraph.
def blockInterrupts (inTable current : Bool) (cs : List Char) : Bool :=
  atLineEnd cs || (thematicBreak? cs).isSome || isHeading cs || (fence? cs).isSome ||
    cs.head? == some '>' || listInterrupts inTable current cs ||
    (cs.head? == some '<' &&
      ((Markup.blockEnd? (cs.drop 1)).isSome || Markup.startsBlockTag (cs.drop 1))) ||
    (footnoteLabel? cs).isSome

-- The rule of the table whose head is the current line.
def tableRule? (containers : List Container) (cs : List Char) : Option TableRule := do
  let cells ← headCells? cs
  let (current, c) := enter containers (afterLine cs)
  guard current
  let rule ← TableRule.read? c.rest
  guard (rule.columns == cells)
  return rule

-- Whether a line ends the paragraph before it. A table does if its head starts with a pipe.
def interrupts (containers : List Container) (current : Bool) (cs : List Char) : Bool :=
  blockInterrupts false current cs ||
    (cs.head? == some '|' && !(afterLine cs).isEmpty && (tableRule? containers cs).isSome)

end SyntaxStream.Markdown
