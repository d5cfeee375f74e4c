import SyntaxStream.Token
import SyntaxStream.Tokenizer

namespace SyntaxStream

-- A text that arrives in chunks, and the tokens it has given so far.
structure Transform where
  tokenizer : Tokenizer
  language : Language
  theme : Theme
  -- whether emitted tokens may be taken back
  allowRecalls : Bool
  -- whether the text is parsed at all
  parsed : Bool
  -- whether the latest parse gave a tree
  hasTree : Bool
  source : String
  -- the tokens the consumer holds, if recalls are allowed
  live : List Span
  -- how many bytes have been emitted
  delivered : Nat
  finished : Bool
deriving Repr, Inhabited

namespace Transform

variable {σ : Type}

def new (tokenizer : Tokenizer) (language : Language) (themeId : String) (allowRecalls : Bool) :
    Except HighlightError Transform := do
  let theme ← tokenizer.theme themeId
  let parsed ← tokenizer.parses language
  return {
    tokenizer, language, theme, allowRecalls, parsed
    hasTree := false
    source := ""
    live := []
    delivered := 0
    finished := false }

def themed (t : Transform) (spans : List Span) : List Token :=
  let bytes := Text.cells t.source.toList
  spans.map fun span => {
    content := Text.slice bytes span.start span.stop
    offset := span.start
    scope := span.scope
    color := span.highlight.bind t.theme.colorFor }

def firstChange (changed : List Window) : Option Nat :=
  (changed.map (·.start)).min?

-- Appends a chunk and parses the text. Tells the first byte whose structure changed: none if
-- nothing earlier changed, the very first one if the parse failed.
def reparse (parser : SyntaxParser σ) (t : Transform) (chunk : String) (s : σ) :
    Option Nat × Transform × σ :=
  let t' := { t with source := t.source ++ chunk }
  if t.parsed then
    match parser.parse t'.source s with
    | (.failed, s) => (some 0, { t' with hasTree := false }, s)
    | (.parsed changed, s) =>
      (if t.hasTree then firstChange changed else none, { t' with hasTree := true }, s)
  else
    (none, t', s)

def commonLength (xs ys : List Span) : Nat :=
  ((xs.zip ys).takeWhile fun (x, y) => x == y).length

-- Segments the text again from the first live token that may have changed, and replaces what
-- differs. While more text may come the last live token is provisional and always replaced.
def emitWithRecalls (parser : SyntaxParser σ) (t : Transform) (changedFrom : Option Nat)
    (provisional : Bool) (s : σ) : List Batch × Transform × σ :=
  let size := t.source.utf8ByteSize
  let changed := min (changedFrom.getD size) size
  let first := match provisional, t.live.getLast? with
    | true, some last => min changed last.start
    | _, _ => changed
  let kept := t.live.takeWhile fun span => span.stop ≤ first
  let doubtful := t.live.drop kept.length
  let windowStart := (kept.getLast?.map (·.stop)).getD 0
  let (fresh, s) := t.tokenizer.segment parser t.language t.source t.hasTree ⟨windowStart, size⟩ s
  let common := commonLength fresh doubtful
  let same := if provisional && common == doubtful.length then common - 1 else common
  let retained := kept ++ doubtful.take same
  let recalled := t.live.length - retained.length
  let added := fresh.drop same
  let batches :=
    (if recalled > 0 then [Batch.retract recalled] else []) ++
    (if added.isEmpty then [] else [Batch.tokens (t.themed added)])
  (batches, { t with live := retained ++ added, delivered := size }, s)

-- Emits what lies between the delivered part and a stable end, for good.
def emitStable (parser : SyntaxParser σ) (t : Transform) (stableEnd : Nat) (s : σ) :
    List Batch × Transform × σ :=
  if stableEnd ≤ t.delivered then
    ([], t, s)
  else
    let (spans, s) :=
      t.tokenizer.segment parser t.language t.source t.hasTree ⟨t.delivered, stableEnd⟩ s
    let batches := if spans.isEmpty then [] else [Batch.tokens (t.themed spans)]
    (batches, { t with delivered := stableEnd }, s)

-- The byte offset behind the last newline of a text, 0 if it has none.
def lineEnd (source : String) : Nat :=
  let bytes := Text.cells source.toList
  bytes.length - (bytes.reverse.takeWhile (·.char != '\n')).length

def push (parser : SyntaxParser σ) (t : Transform) (chunk : String) (s : σ) :
    List Batch × Transform × σ :=
  if t.finished || chunk.isEmpty then
    ([], t, s)
  else
    let (changedFrom, t, s) := t.reparse parser chunk s
    if t.allowRecalls then
      t.emitWithRecalls parser changedFrom true s
    else
      t.emitStable parser (lineEnd t.source) s

-- Ends the input and gives what is still pending.
def flush (parser : SyntaxParser σ) (t : Transform) (s : σ) : List Batch × Transform × σ :=
  if t.finished then
    ([], t, s)
  else
    let t := { t with finished := true }
    if t.allowRecalls then
      t.emitWithRecalls parser none false s
    else
      t.emitStable parser t.source.utf8ByteSize s

def describe (t : Transform) : String :=
  "TokenTransform \x7b language: " ++ t.language.label ++ ", theme: " ++ Text.quoted t.theme.id ++
    ", allow_recalls: " ++ toString t.allowRecalls ++
    ", bytes: " ++ toString t.source.utf8ByteSize ++ ", live: " ++ toString t.live.length ++
    ", finished: " ++ toString t.finished ++ " \x7d"

end Transform

end SyntaxStream
