import SyntaxStream.Capture

namespace SyntaxStream

-- What a parse of the whole text answers: a failure, or a tree. A parse that starts from an
-- earlier tree also tells the ranges of bytes in which the two trees differ.
inductive ParseAnswer where
  | failed
  | parsed (changed : List Window)
deriving Repr, DecidableEq, Inhabited

-- The parser behind the highlighter. Its state is whatever it keeps between questions: it is
-- asked to parse a text, and then for the captures of its latest tree in a window of the text.
structure SyntaxParser (σ : Type) where
  parse : String → σ → ParseAnswer × σ
  captures : Window → σ → List RawCapture × σ

namespace SyntaxParser

-- A parser without grammars: no text can be parsed.
def absent : SyntaxParser Unit where
  parse _ s := (.failed, s)
  captures _ s := ([], s)

end SyntaxParser

-- Recorded answers, replayed in the order in which they were given. The flag tells whether more
-- was asked than is recorded.
structure Recording where
  parses : List ParseAnswer
  queries : List (List RawCapture)
  overrun : Bool
deriving Repr, DecidableEq, Inhabited

namespace Recording

def blank : Recording := ⟨[], [], false⟩

-- Whether all that is recorded has been asked for, and no more.
def usedUp (r : Recording) : Bool :=
  r.parses.isEmpty && r.queries.isEmpty && !r.overrun

def nextParse (r : Recording) : ParseAnswer × Recording :=
  match r.parses with
  | [] => (.failed, { r with overrun := true })
  | answer :: rest => (answer, { r with parses := rest })

def nextQuery (r : Recording) : List RawCapture × Recording :=
  match r.queries with
  | [] => ([], { r with overrun := true })
  | answer :: rest => (answer, { r with queries := rest })

-- Replays a recording.
def player : SyntaxParser Recording where
  parse _ r := r.nextParse
  captures _ r := r.nextQuery

end Recording

end SyntaxStream
