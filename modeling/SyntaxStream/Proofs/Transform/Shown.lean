import SyntaxStream.Proofs.Transform.Stable
import SyntaxStream.Proofs.Transform.View

namespace SyntaxStream

theorem TokenBuffer.tokens_applyAll_of_atMostOne {batches : List Batch}
    (h : Batch.AtMostOne batches) (buffer : TokenBuffer) :
    (buffer.applyAll batches).tokens = buffer.tokens ++ Batch.emitted batches := by
  rcases h with rfl | ⟨ts, -, rfl⟩
  · exact (List.append_nil _).symm
  · simp [applyAll, apply, Batch.emitted, Batch.added]

namespace Transform

open Text

variable {σ : Type} {t : Transform} {tokens : List Token} {buffer : TokenBuffer}

-- What a consumer holds who has applied all batches of a transform. With recalls these are the
-- tokens of the live spans, without them all that has been emitted.
def Shows (t : Transform) (tokens : List Token) : Prop :=
  (Recalling t ∧ tokens = t.themed t.live) ∨ Delivering t tokens

theorem shows_of_new {tokenizer : Tokenizer} {language : Language} {themeId : String}
    {recalls : Bool} (h : Transform.new tokenizer language themeId recalls = .ok t) :
    t.Shows [] := by
  cases recalls with
  | true =>
    have hrecalling := recalling_of_new h
    obtain ⟨theme, -, rfl⟩ := exists_of_new h
    exact Or.inl ⟨hrecalling, rfl⟩
  | false => exact Or.inr (delivering_of_new h)

theorem Shows.step (h : t.Shows buffer.tokens) (parser : SyntaxParser σ) (call : Call) (s : σ) :
    (t.step parser call s).2.1.Shows (buffer.applyAll (t.step parser call s).1).tokens := by
  rcases h with ⟨hrecalling, htokens⟩ | hdelivering
  · exact Or.inl
      ⟨hrecalling.step parser call s, (applyAll_step hrecalling htokens parser call s).1⟩
  · obtain ⟨hnext, hone⟩ := hdelivering.step parser call s
    rw [TokenBuffer.tokens_applyAll_of_atMostOne hone]
    exact Or.inr hnext

theorem Shows.run (h : t.Shows buffer.tokens) (parser : SyntaxParser σ) (calls : List Call) (s : σ) :
    (t.run parser calls s).2.1.Shows (buffer.applyAll (t.run parser calls s).1).tokens := by
  induction calls generalizing t buffer s with
  | nil => exact h
  | cons call rest ih =>
    rw [run_cons]
    simp only [TokenBuffer.applyAll_append]
    exact ih (h.step parser call s) _

-- The consumer has the text as far as it is not withheld: without recalls the last line is, as
-- long as it can go on.
theorem Shows.text (h : t.Shows tokens) :
    String.join (tokens.map (·.content)) =
      if t.allowRecalls || t.finished then t.source else completeLines t.source := by
  rcases h with ⟨hrecalling, rfl⟩ | hdelivering
  · rw [join_content_themed hrecalling.tiles, slice_zero_utf8ByteSize, hrecalling.recalls]
    rfl
  · rw [hdelivering.text, hdelivering.stable, Bool.false_or]

theorem allowRecalls_step (parser : SyntaxParser σ) (t : Transform) (call : Call) (s : σ) :
    (t.step parser call s).2.1.allowRecalls = t.allowRecalls := by
  obtain ⟨_, _, _, _, _, he⟩ := exists_step_state parser t call s
  rw [he]

end Transform

end SyntaxStream
