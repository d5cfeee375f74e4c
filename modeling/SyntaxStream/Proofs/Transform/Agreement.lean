import SyntaxStream.Proofs.Transform.Emission
import SyntaxStream.Proofs.Transform.Run

namespace SyntaxStream

variable {σ τ α : Type} {R : σ → τ → Prop}

-- Results that are equal but for the states that come with them, which are related.
def Alike (R : σ → τ → Prop) (x : α × σ) (y : α × τ) : Prop := x.1 = y.1 ∧ R x.2 y.2

-- Two parsers that answer alike, now and as long as they are asked the same.
structure SyntaxParser.Agree (p : SyntaxParser σ) (q : SyntaxParser τ) (R : σ → τ → Prop) :
    Prop where
  parse : ∀ {s u}, R s u → ∀ text, Alike R (p.parse text s) (q.parse text u)
  captures : ∀ {s u}, R s u → ∀ window, Alike R (p.captures window s) (q.captures window u)

namespace SyntaxParser.Agree

variable {p : SyntaxParser σ} {q : SyntaxParser τ} {s : σ} {u : τ}

theorem segment (h : p.Agree q R) (hr : R s u) (t : Tokenizer) (language : Language)
    (source : String) (hasTree : Bool) (window : Window) :
    Alike R (t.segment p language source hasTree window s)
      (t.segment q language source hasTree window u) := by
  simp only [Tokenizer.segment]
  split
  · exact ⟨rfl, hr⟩
  · split
    · obtain ⟨hanswer, hnext⟩ := h.captures hr (window.clampTo (Text.cells source.toList).length)
      exact ⟨by rw [hanswer], hnext⟩
    · exact ⟨rfl, hr⟩

theorem reparse (h : p.Agree q R) (hr : R s u) (t : Transform) (chunk : String) :
    Alike (Alike R) (t.reparse p chunk s) (t.reparse q chunk u) := by
  by_cases ht : t.parsed = true
  · obtain ⟨hanswer, hnext⟩ := h.parse hr (t.source ++ chunk)
    rcases hp : p.parse (t.source ++ chunk) s with ⟨answer, s'⟩
    rcases hq : q.parse (t.source ++ chunk) u with ⟨answer', u'⟩
    rw [hp, hq] at hanswer hnext
    obtain rfl : answer = answer' := hanswer
    cases answer with
    | failed =>
      rw [Transform.reparse_of_failed ht hp, Transform.reparse_of_failed ht hq]
      exact ⟨rfl, rfl, hnext⟩
    | parsed changed =>
      rw [Transform.reparse_of_parsed ht hp, Transform.reparse_of_parsed ht hq]
      exact ⟨rfl, rfl, hnext⟩
  · have ht : t.parsed = false := by simpa using ht
    rw [Transform.reparse_of_plain ht, Transform.reparse_of_plain ht]
    exact ⟨rfl, rfl, hr⟩

theorem emitWithRecalls (h : p.Agree q R) (hr : R s u) (t : Transform)
    (changedFrom : Option Nat) (provisional : Bool) :
    Alike (Alike R) (t.emitWithRecalls p changedFrom provisional s)
      (t.emitWithRecalls q changedFrom provisional u) := by
  obtain ⟨hfresh, hnext⟩ : Alike R (t.resegmented p changedFrom provisional s)
      (t.resegmented q changedFrom provisional u) := h.segment hr ..
  rw [Transform.emitWithRecalls_unfold, Transform.emitWithRecalls_unfold, hfresh]
  exact ⟨rfl, rfl, hnext⟩

theorem emitStable (h : p.Agree q R) (hr : R s u) (t : Transform) (stableEnd : Nat) :
    Alike (Alike R) (t.emitStable p stableEnd s) (t.emitStable q stableEnd u) := by
  obtain ⟨hspans, hnext⟩ :=
    h.segment hr t.tokenizer t.language t.source t.hasTree ⟨t.delivered, stableEnd⟩
  by_cases hle : stableEnd ≤ t.delivered
  · simp only [Transform.emitStable, hle, if_true]
    exact ⟨rfl, rfl, hr⟩
  · simp only [Transform.emitStable, hle, if_false, hspans]
    exact ⟨rfl, rfl, hnext⟩

-- A transform that is pushed with either parser does the same.
theorem push (h : p.Agree q R) (hr : R s u) (t : Transform) (chunk : String) :
    Alike (Alike R) (t.push p chunk s) (t.push q chunk u) := by
  rcases t.idle_or_taken chunk with hi | ⟨hf, hc⟩
  · rw [Transform.push_of_idle hi, Transform.push_of_idle hi]
    exact ⟨rfl, rfl, hr⟩
  · obtain ⟨hchanged, htransform, hnext⟩ := h.reparse hr t chunk
    cases ha : t.allowRecalls with
    | true =>
      rw [Transform.push_of_recalls ha hf hc, Transform.push_of_recalls ha hf hc, hchanged,
        htransform]
      exact h.emitWithRecalls hnext ..
    | false =>
      rw [Transform.push_of_stable ha hf hc, Transform.push_of_stable ha hf hc, htransform]
      exact h.emitStable hnext ..

theorem flush (h : p.Agree q R) (hr : R s u) (t : Transform) :
    Alike (Alike R) (t.flush p s) (t.flush q u) := by
  by_cases hf : t.finished = true
  · rw [Transform.flush_of_finished hf, Transform.flush_of_finished hf]
    exact ⟨rfl, rfl, hr⟩
  · have hf : t.finished = false := by simpa using hf
    cases ha : t.allowRecalls with
    | true =>
      rw [Transform.flush_of_recalls ha hf, Transform.flush_of_recalls ha hf]
      exact h.emitWithRecalls hr ..
    | false =>
      rw [Transform.flush_of_stable ha hf, Transform.flush_of_stable ha hf]
      exact h.emitStable hr ..

end SyntaxParser.Agree

namespace Recording

-- Recordings with the same answers left, whether or not too much was asked of one of them.
def SameLeft (r r' : Recording) : Prop := r.parses = r'.parses ∧ r.queries = r'.queries

theorem agree_player : player.Agree player SameLeft where
  parse := by
    rintro ⟨parses, queries, overrun⟩ ⟨_, _, overrun'⟩ ⟨rfl, rfl⟩ text
    cases parses <;> exact ⟨rfl, rfl, rfl⟩
  captures := by
    rintro ⟨parses, queries, overrun⟩ ⟨_, _, overrun'⟩ ⟨rfl, rfl⟩ window
    cases queries <;> exact ⟨rfl, rfl, rfl⟩

end Recording

end SyntaxStream
