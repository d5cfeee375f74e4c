import SyntaxStream.Highlight.Request
import SyntaxStream.Markdown.Block
import SyntaxStream.Text.Natural

namespace SyntaxStream

structure CodeBlock where
  -- the first word of the info string
  lang : String
  -- what follows it
  fenceMeta : Option String
  code : String
  -- the number of the line of the opening fence
  line : Nat
  highlights : List Nat
deriving Repr, DecidableEq, Inhabited

namespace CodeBlock

def options (b : CodeBlock) : HighlightOptions := ⟨b.highlights, b.fenceMeta⟩

-- Splits an info string into its first word and what follows it.
def splitInfo (info : String) : String × Option String :=
  let cs := Text.trim info.toList
  match Text.splitOnce Text.isBlank cs with
  | none => (String.ofList cs, none)
  | some (lang, rest) =>
    let rest := Text.trim rest
    (String.ofList lang, if rest.isEmpty then none else some (String.ofList rest))

-- The numbers from one to another, as far as there are lines.
def linesBetween (lineCount first last : Nat) : List Nat :=
  List.range' first (min last lineCount + 1 - first)

-- The lines that an entry of a selection asks for: a line, or a range of lines.
def entryLines (lineCount : Nat) (entry : List Char) : List Nat :=
  let entry := Text.trim entry
  match Text.splitOnce (· == '-') entry with
  | some (first, last) =>
    match Text.natural? (Text.trim first), Text.natural? (Text.trim last) with
    | some first, some last => linesBetween lineCount first last
    | _, _ => []
  | none =>
    match Text.natural? entry with
    | some line => if line ≤ lineCount then [line] else []
    | none => []

-- The text between the first opening brace and the first closing brace after it.
def selection? (cs : List Char) : Option (List Char) := do
  let (_, rest) ← Text.splitOnce (· == '\x7b') cs
  let (inner, _) ← Text.splitOnce (· == '\x7d') rest
  return inner

-- All lines that the entries of a selection ask for, in the order of the entries.
def requestedLines (lineCount : Nat) (selection : List Char) : List Nat :=
  (Text.splitAll (· == ',') selection).flatMap (entryLines lineCount)

-- The lines that the text behind the language selects, each once and in order.
def selectedLines (fenceMeta : String) (lineCount : Nat) : List Nat :=
  match selection? fenceMeta.toList with
  | none => []
  | some selection =>
    (((requestedLines lineCount selection).filter (0 < ·)).mergeSort (· ≤ ·)).eraseReps

-- A block whose text is still being read.
structure Draft where
  lang : String
  fenceMeta : Option String
  line : Nat
  text : String
deriving Repr, DecidableEq, Inhabited

def lineAt (document : String) (offset : Nat) : Nat :=
  ((Text.cells document.toList).take offset).countP (·.char == '\n') + 1

-- A newline at the end of the text ends its last line and is no part of the code.
def withoutLastNewline (text : String) : String :=
  if text.toList.getLast? == some '\n' then String.ofList text.toList.dropLast else text

def lineCount (text : String) : Nat := (Text.splitAll (· == '\n') text.toList).length

def Draft.finish (d : Draft) : CodeBlock :=
  let code := withoutLastNewline d.text
  {
    lang := d.lang
    fenceMeta := d.fenceMeta
    code
    line := d.line
    highlights := match d.fenceMeta with
      | some text => selectedLines text (lineCount code)
      | none => [] }

-- The blocks read so far, and the one being read.
structure Progress where
  finished : List CodeBlock
  current : Option Draft
deriving Repr, DecidableEq, Inhabited

-- Takes an event into account. Text outside of fenced blocks counts for nothing.
def step (document : String) (p : Progress) : Markdown.Event → Progress
  | .fenced offset info =>
    let (lang, fenceMeta) := splitInfo info
    { p with current := some ⟨lang, fenceMeta, lineAt document offset, ""⟩ }
  | .indented _ => p
  | .text content =>
    { p with current := p.current.map fun d => { d with text := d.text ++ content } }
  | .codeEnd =>
    match p.current with
    | some d => ⟨p.finished ++ [d.finish], none⟩
    | none => p
  | .other => p

-- The fenced blocks that a list of events tells of.
def ofEvents (document : String) (events : List Markdown.Event) : List CodeBlock :=
  (events.foldl (step document) ⟨[], none⟩).finished

def all (document : String) : List CodeBlock :=
  ofEvents document (Markdown.events document)

end CodeBlock

end SyntaxStream
