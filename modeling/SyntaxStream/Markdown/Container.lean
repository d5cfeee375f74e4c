import SyntaxStream.Markdown.Cursor

namespace SyntaxStream.Markdown

-- What a line may stand in.
inductive Container where
  | quote
  -- a list whose items have this sign
  | list (sign : Char)
  -- an item whose lines are indented by this many columns
  | item (indent : Nat)
  | footnote
deriving Repr, DecidableEq, Inhabited

namespace Container

def footnoteIndent : Nat := 4

-- Whether a line goes on in a container, and its place behind the mark of the container. A list
-- goes on as long as one of its items might follow.
def continues? (container : Container) (c : Cursor) : Option Cursor :=
  match container with
  | quote => (c.skipUpTo 3).2.quoteSign?
  | list _ => some c
  | item indent =>
    let (found, after) := c.skipAll indent
    if found || after.atEnd then some after else none
  | footnote =>
    let (found, after) := c.skipAll footnoteIndent
    if found || after.atEnd then some after else none

end Container

-- How many of the open containers a line goes on in, from the outermost inwards.
def matchContainers : List Container → Cursor → Nat × Cursor
  | [], c => (0, c)
  | container :: inner, c =>
    match container.continues? c with
    | none => (0, c)
    | some c =>
      let (matched, c) := matchContainers inner c
      (matched + 1, c)

-- Whether a line goes on in all of the containers, and its place behind those it goes on in.
def enter (containers : List Container) (rest : List Char) : Bool × Cursor :=
  let (matched, c) := matchContainers containers (.ofRest rest)
  (matched == containers.length, c)

end SyntaxStream.Markdown
