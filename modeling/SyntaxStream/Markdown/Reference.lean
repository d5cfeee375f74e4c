import SyntaxStream.Markdown.Interrupt

namespace SyntaxStream.Markdown.Reference

-- The start of a line within a definition. None if another block starts there.
def startOfLine? (containers : List Container) (cs : List Char) : Option (List Char) :=
  let (current, c) := enter containers cs
  let (found, c) := c.skipAll 4
  if !found && (interrupts containers current c.rest || (underline? c.rest).isSome) then none
  else some c.rest

-- Passes over blanks with at most one end of a line among them. Tells how many there are.
def space? (containers : List Container) (cs : List Char) : Option (Nat × List Char) :=
  let start := skipGaps cs
  match lineEnd? start with
  | none => some (0, start)
  | some after =>
    (startOfLine? containers after).bind fun line =>
      let rest := skipGaps line
      if atLineEnd rest then none else some (1, rest)

-- What follows a destination in angle brackets.
def bracketed? : List Char → Option (List Char)
  | [] => none
  | '\\' :: c :: rest => if isPunctuation c then bracketed? rest else bracketed? (c :: rest)
  | c :: rest =>
    if c == '>' then some rest
    else if c == '<' || c == '\n' || c == '\r' then none
    else bracketed? rest

-- What follows a destination without brackets. Parentheses in it are balanced, and not nested
-- deeply.
def unbracketed? (depth : Nat) : List Char → Option (List Char)
  | [] => if depth == 0 then some [] else none
  | '\\' :: c :: rest =>
    if isPunctuation c then unbracketed? depth rest else unbracketed? depth (c :: rest)
  | c :: rest =>
    if c.toNat ≤ 0x20 then if depth == 0 then some (c :: rest) else none
    else if c == '(' then if 1 < depth then none else unbracketed? (depth + 1) rest
    else if c == ')' then
      if depth == 0 then some (c :: rest) else unbracketed? (depth - 1) rest
    else unbracketed? depth rest

def destination? (cs : List Char) : Option (List Char) :=
  match cs with
  | '<' :: rest => bracketed? rest
  | _ =>
    match unbracketed? 0 cs with
    | some rest => if rest.length < cs.length then some rest else none
    | none => none

-- What follows a title whose opening sign has been read.
def titleEnd? (containers : List Container) (closing : Char) (fuel : Nat) (cs : List Char) :
    Option (List Char) :=
  match fuel with
  | 0 => none
  | fuel + 1 =>
    match cs with
    | [] => none
    | '\n' :: rest =>
      (startOfLine? containers rest).bind fun line =>
        titleEnd? containers closing fuel (line.dropWhile fun c => c == ' ' || c == '\t')
    | '\\' :: rest => titleEnd? containers closing fuel (rest.drop 1)
    | c :: rest => if c == closing then some rest else titleEnd? containers closing fuel rest

def title? (containers : List Container) (cs : List Char) : Option (List Char) :=
  match cs with
  | [] => none
  | c :: rest =>
    let read (closing : Char) := titleEnd? containers closing (rest.length + 1) rest
    if c == '"' || c == '\'' then read c
    else if c == '(' then read ')'
    else none

-- What follows a destination and the title that may come after it. A title that is not alone in
-- the rest of its line is none; then the line of the destination has to have ended before.
def afterDestination? (containers : List Container) (cs : List Char) : Option (List Char) :=
  match space? containers cs with
  | none => some cs
  | some (newlines, rest) =>
    if newlines == 0 && rest.length == cs.length then none
    else match title? containers rest with
      | some after =>
        if isBlankLine after then some after else if newlines == 0 then none else some cs
      | none => if newlines == 0 then none else some cs

-- What follows the definition of a reference that starts here, and the end of its line.
def read? (containers : List Container) (cs : List Char) : Option (List Char) :=
  match cs with
  | '[' :: rest =>
    match label? (startOfLine? containers) rest with
    | some (':' :: after) => do
      let (_, start) ← space? containers after
      let rest ← destination? start
      let rest ← afterDestination? containers rest
      return (blankLine? rest).getD rest
    | _ => none
  | _ => none

end SyntaxStream.Markdown.Reference
