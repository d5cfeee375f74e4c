import SyntaxStream.Markdown.Entity
import SyntaxStream.Markdown.Event
import SyntaxStream.Markdown.Reference
import SyntaxStream.Text.Cell

namespace SyntaxStream.Markdown

-- The state between two blocks of a document.
structure BlockState where
  size : Nat
  -- the open containers, the outermost first
  containers : List Container
  -- whether the latest item of a list had nothing on its first line
  emptyItem : Bool
  afterBlank : Bool
  -- the events so far, the latest first
  events : List Event
deriving Repr, Inhabited

namespace BlockState

def innermost (s : BlockState) : Option Container := s.containers.getLast?

def push (s : BlockState) (container : Container) : BlockState :=
  { s with containers := s.containers ++ [container] }

def isList : Container → Bool
  | .list _ => true
  | _ => false

def isItem : Container → Bool
  | .item _ => true
  | _ => false

-- Closes all but the outermost containers. The end of a list ends its items.
def keep (s : BlockState) (count : Nat) : BlockState :=
  { s with
    containers := s.containers.take count
    emptyItem := s.emptyItem && !(s.containers.drop count).any isList }

def pop (s : BlockState) : BlockState := s.keep (s.containers.length - 1)

-- An item may start with one blank line but not with two.
def finishEmptyItem (s : BlockState) : BlockState :=
  let s := if s.emptyItem && s.afterBlank && s.innermost.any isItem then s.pop else s
  { s with emptyItem := false }

-- Closes the list that no item goes on in.
def finishList (s : BlockState) : BlockState :=
  let s := s.finishEmptyItem
  let s := if s.innermost.any isList then s.pop else s
  { s with afterBlank := false }

-- Opens a list for an item, unless one with its sign is open.
def continueList (s : BlockState) (sign : Char) : BlockState :=
  let s := s.finishEmptyItem
  if s.innermost == some (.list sign) then { s with afterBlank := false }
  else s.finishList.push (.list sign)

-- Opens a footnote. Footnotes do not stand directly in footnotes.
def openFootnote (s : BlockState) : BlockState :=
  let s := s.finishList
  let s := if s.innermost == some .footnote then s.pop else s
  s.push .footnote

-- Takes note of a blank line. An item that has been empty so far asks for no more indentation.
def noteBlank (s : BlockState) : BlockState :=
  match s.innermost with
  | some .quote => s
  | some (.item _) =>
    if s.emptyItem then { s.pop.push (.item 0) with emptyItem := true, afterBlank := true }
    else { s with afterBlank := true }
  | _ => { s with afterBlank := true }

def emit (s : BlockState) (events : List Event) : BlockState :=
  { s with events := events.reverse ++ s.events }

def offsetOf (s : BlockState) (rest : List Char) : Nat := s.size - Text.byteLength rest

end BlockState

open BlockState

-- A line whose containers have been opened; it may have ended with the mark of one of them.
inductive Opened where
  | line (s : BlockState) (c : Cursor)
  | ended (s : BlockState) (rest : List Char)
deriving Inhabited

-- Opens the containers that start on a line.
def openContainers (fuel : Nat) (s : BlockState) (c : Cursor) : Opened :=
  match fuel with
  | 0 => .line s c
  | fuel + 1 =>
    let (indent, start) := c.skipUpTo 4
    if 4 ≤ indent then .line s c
    else match footnoteLabel? start.rest with
      | some rest => openContainers fuel s.openFootnote (.ofRest (skipGaps rest))
      | none =>
        match Marker.read? indent start with
        | some (marker, after) =>
          let s := (s.continueList marker.sign).push (.item marker.indent)
          match blankLine? after.rest with
          | some rest => .ended { s with emptyItem := true } rest
          | none =>
            match taskSign? after with
            | none => openContainers fuel s after
            | some after =>
              match blankLine? after.rest with
              | some rest => .ended s rest
              | none => openContainers fuel s after
        | none =>
          match start.quoteSign? with
          | some after => openContainers fuel (s.finishList.push .quote) after
          | none => .line s c

-- What follows a block of markup. It ends with the line that contains its end, or before a line
-- that is not in its containers.
def afterMarkup (containers : List Container) (ending : String) (fuel : Nat) (cs : List Char) :
    List Char :=
  match fuel with
  | 0 => []
  | fuel + 1 =>
    let next := nextLine cs
    let (current, c) := enter containers next
    if !current || Text.occursIn ending.toList (thisLine cs) || c.rest.isEmpty then next
    else afterMarkup containers ending fuel c.rest

-- What follows a block of markup that a blank line ends.
def afterTagBlock (containers : List Container) (fuel : Nat) (cs : List Char) : List Char :=
  match fuel with
  | 0 => []
  | fuel + 1 =>
    let next := nextLine cs
    let (current, c) := enter containers next
    if !current || isBlankLine c.rest then next else afterTagBlock containers fuel c.rest

def afterIndented (containers : List Container) (fuel : Nat) (cs : List Char) : List Char :=
  match fuel with
  | 0 => []
  | fuel + 1 =>
    let next := nextLine cs
    let (current, c) := enter containers next
    let (found, c) := c.skipAll 4
    if !current || !(found || c.atEnd) || c.rest.isEmpty then next
    else afterIndented containers fuel c.rest

-- A line of code. A carriage return before the newline is dropped.
def codeLine (spare : Nat) (line : List Char) : String :=
  let kept := match line.reverse with
    | last :: '\r' :: rest => if last.utf8Size == 1 then rest.reverse ++ [last] else line
    | _ => line
  String.ofList (List.replicate spare ' ' ++ kept)

-- The lines of a fenced block, and what follows it. Lines lose the indentation of the fence.
def fencedLines (containers : List Container) (fence : Fence) (indent : Nat) (fuel : Nat)
    (cs : List Char) : List String × List Char :=
  match fuel with
  | 0 => ([], [])
  | fuel + 1 =>
    let (current, c) := enter containers cs
    if !current then ([], cs)
    else
      let c := (c.skipUpTo indent).2
      let (deep, close) := c.skipAll (4 - indent)
      let closing := if deep then none else closingFence? fence close.rest
      match closing with
      | some rest => ([], (blankLine? rest).getD rest)
      | none =>
        let (lines, rest) := fencedLines containers fence indent fuel (nextLine c.rest)
        (codeLine c.spare (thisLine c.rest) :: lines, rest)

-- The info string behind an opening fence.
def infoString (fence : Fence) (cs : List Char) : String :=
  let line := thisLine (skipGaps (cs.drop fence.length))
  String.ofList (unescape (line.reverse.dropWhile isSpace).reverse)

def fencedBlock (s : BlockState) (fence : Fence) (indent : Nat) (cs : List Char) :
    BlockState × List Char :=
  let body := nextLine (skipGaps (cs.drop fence.length))
  let (lines, rest) := fencedLines s.containers fence indent (body.length + 1) body
  (s.emit (.fenced (s.offsetOf cs) (infoString fence cs) :: lines.map .text ++ [.codeEnd]), rest)

def afterRows (containers : List Container) (fuel : Nat) (cs : List Char) : List Char :=
  match fuel with
  | 0 => []
  | fuel + 1 =>
    let (current, c) := enter containers cs
    let row := c.rest.dropWhile fun d => d == ' ' || d == '\t'
    let cells := if row.head? == some '|' then row.drop 1 else row
    if !current || blockInterrupts true true row || isBlankLine cells then cs
    else afterRows containers fuel (afterLine row)

-- What follows the paragraph to which a line belongs. A line that is not in the containers of the
-- paragraph may still go on with it.
def afterParagraph (containers : List Container) (fuel : Nat) (cs : List Char) : List Char :=
  match fuel with
  | 0 => []
  | fuel + 1 =>
    let next := afterLine cs
    let (current, c) := enter containers next
    let (deep, start) := c.skipAll 4
    let heading := if !deep && current then underline? start.rest else none
    match heading with
    | some rest => rest
    | none =>
      let text := start.rest.dropWhile fun d => d == ' ' || d == '\t'
      if (!deep && interrupts containers current start.rest) || atLineEnd text then next
      else afterParagraph containers fuel text

-- What follows a paragraph, or the table that it turns out to be.
def afterText (containers : List Container) (cs : List Char) : List Char :=
  match tableRule? containers cs with
  | some rule => afterRows containers (cs.length + 1) rule.rest
  | none => afterParagraph containers (cs.length + 1) cs

-- Whether a block of markup starts here, and what follows it.
def markup? (containers : List Container) (cs : List Char) : Option (List Char) :=
  match cs with
  | '<' :: inner =>
    match Markup.blockEnd? inner with
    | some ending => some (afterMarkup containers ending (cs.length + 1) cs)
    | none =>
      if Markup.startsBlockTag inner || Markup.isTagLine inner then
        some (afterTagBlock containers (cs.length + 1) cs)
      else none
  | _ => none

-- Reads a block that contains no other, and gives what follows it.
def leafBlock (s : BlockState) (indent : Nat) (cs : List Char) : BlockState × List Char :=
  match markup? s.containers cs with
  | some rest => (s, rest)
  | none =>
    match thematicBreak? cs with
    | some rest => (s, rest)
    | none =>
      if isHeading cs then (s, afterLine cs)
      else match fence? cs with
        | some fence => fencedBlock s fence indent cs
        | none =>
          match Reference.read? s.containers cs with
          | some rest => (s, rest)
          | none => (s, afterText s.containers cs)

-- Reads the block that starts with a line, and gives what follows it.
def block (s : BlockState) (cs : List Char) : BlockState × List Char :=
  let (matched, c) := matchContainers s.containers (.ofRest cs)
  match openContainers (cs.length + 1) (s.keep matched) c with
  | .ended s rest => (s, rest)
  | .line s c =>
    match blankLine? c.rest with
    | some rest => (s.noteBlank, rest)
    | none =>
      let s := s.finishList
      let (indent, start) := c.skipUpTo 4
      if 4 ≤ indent then
        (s.emit [.indented (s.offsetOf start.rest), .codeEnd],
          afterIndented s.containers (cs.length + 1) start.rest)
      else leafBlock s indent start.rest

def blocks (fuel : Nat) (s : BlockState) (cs : List Char) : BlockState :=
  match fuel with
  | 0 => s
  | fuel + 1 =>
    if cs.isEmpty then s
    else
      let (s, rest) := block s cs
      blocks fuel s rest

-- The events of a document. Every block takes at least one character.
def events (document : String) : List Event :=
  let cs := document.toList
  (blocks cs.length ⟨Text.byteLength cs, [], false, false, []⟩ cs).events.reverse

end SyntaxStream.Markdown
