import SyntaxStream.Proofs.Transform.Run

namespace SyntaxStream

variable {σ : Type}

structure Query where
  window : Window
  answer : List RawCapture
deriving Repr, DecidableEq

-- The parser that also writes down every highlight query.
def SyntaxParser.logging (parser : SyntaxParser σ) : SyntaxParser (σ × List Query) where
  parse text s :=
    let (answer, next) := parser.parse text s.1
    (answer, next, s.2)
  captures window s :=
    let (answer, next) := parser.captures window s.1
    (answer, next, s.2 ++ [⟨window, answer⟩])

namespace Tokenizer

open Text

theorem log_segment (parser : SyntaxParser σ) {t : Tokenizer} {language : Language}
    {source : String} {a b : Nat} (s : σ) (hs : t.supports language = true)
    (hg : language.hasGrammar = true) (hab : a < b) (hb : b ≤ (cells source.toList).length)
    (log : List Query) :
    (t.segment parser.logging language source true ⟨a, b⟩ (s, log)).2.2 =
      log ++ [⟨⟨a, b⟩, (parser.captures ⟨a, b⟩ s).1⟩] := by
  have hw : (Window.mk a b).isEmpty = false := by simpa [Window.isEmpty] using hab
  simp only [segment, clampTo_of_le (Nat.le_of_lt hab) hb, hw, hs, hg, Bool.and_self,
    Bool.false_eq_true, if_false, if_true]
  rfl

end Tokenizer

namespace Transform

open Text

variable {parser : SyntaxParser σ} {t : Transform} {chunk : String} {s : σ}

-- The highlight queries that are run while a chunk is pushed.
def asked (parser : SyntaxParser σ) (t : Transform) (chunk : String) (s : σ) : List Query :=
  (t.push parser.logging chunk (s, [])).2.2.2

theorem reparse_logging (parser : SyntaxParser σ) (t : Transform) (chunk : String) (s : σ)
    (log : List Query) :
    t.reparse parser.logging chunk (s, log) =
      ((t.reparse parser chunk s).1, (t.reparse parser chunk s).2.1,
        (t.reparse parser chunk s).2.2, log) := by
  by_cases h : t.parsed = true
  · have hlogged : parser.logging.parse (t.source ++ chunk) (s, log) =
        ((parser.parse (t.source ++ chunk) s).1, (parser.parse (t.source ++ chunk) s).2, log) := rfl
    rcases hp : parser.parse (t.source ++ chunk) s with ⟨_ | changed, s'⟩
    · rw [hp] at hlogged
      rw [reparse_of_failed h hlogged, reparse_of_failed h hp]
    · rw [hp] at hlogged
      rw [reparse_of_parsed h hlogged, reparse_of_parsed h hp]
  · have h : t.parsed = false := by simpa using h
    rw [reparse_of_plain h, reparse_of_plain h]

-- With recalls a push asks for the window behind what is kept.
theorem asked_eq {changed : List Window} {s' : σ} (hr : t.allowRecalls = true)
    (hf : t.finished = false) (hp : t.parsed = true) (hc : chunk ≠ "")
    (hs : t.tokenizer.supports t.language = true) (hg : t.language.hasGrammar = true)
    (ha : parser.parse (t.source ++ chunk) s = (.parsed changed, s'))
    (hw : (t.reparse parser chunk s).2.1.resumeAt (t.reparse parser chunk s).1 true <
      (t.source ++ chunk).utf8ByteSize) :
    asked parser t chunk s =
      let window : Window :=
        ⟨(t.reparse parser chunk s).2.1.resumeAt (t.reparse parser chunk s).1 true,
          (t.source ++ chunk).utf8ByteSize⟩
      [⟨window, (parser.captures window s').1⟩] := by
  have hlog := Tokenizer.log_segment parser s' hs hg hw
    (Nat.le_of_eq (utf8ByteSize_eq (t.source ++ chunk))) []
  rw [asked, push_of_recalls hr hf hc, reparse_logging, emitWithRecalls_unfold]
  rw [reparse_of_parsed hp ha] at hlog ⊢
  exact hlog

end Transform

end SyntaxStream
