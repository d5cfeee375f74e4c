import SyntaxStream.Proofs.Transform.Retraction
import SyntaxStream.Proofs.Transform.Shown

namespace SyntaxStream

namespace Snapshot

theorem bytes_ofBuffer (buffer : TokenBuffer) :
    (ofBuffer buffer).bytes = buffer.text.utf8ByteSize := by
  have hsum : ∀ (tokens : List Token) (n : Nat),
      tokens.foldl (fun n token => n + token.content.utf8ByteSize) n =
        n + (String.join (tokens.map (·.content))).utf8ByteSize := by
    intro tokens
    induction tokens with
    | nil => exact fun n => rfl
    | cons token rest ih =>
      intro n
      rw [List.foldl_cons, ih, List.map_cons, String.join_cons, String.utf8ByteSize_append,
        Nat.add_assoc]
  rw [ofBuffer, hsum, Nat.zero_add]
  rfl

-- Tokens that are appended are counted, and so is every retraction, whatever replaces it.
theorem diff_applyAll_eq_none_iff (buffer : TokenBuffer) {batches : List Batch}
    (h : Batch.AtMostOne batches ∨ ∃ n ts, batches = [.retract n, .tokens ts]) :
    (ofBuffer buffer).diff (ofBuffer (buffer.applyAll batches)) = none ↔ batches = [] := by
  rw [diff_eq_none_iff]
  constructor
  · intro hsame
    rcases h with (hnil | ⟨ts, hne, rfl⟩) | ⟨n, ts, rfl⟩
    · exact hnil
    · have htokens : buffer.tokens.length = (buffer.tokens ++ ts).length :=
        congrArg Snapshot.tokens hsame
      rw [List.length_append] at htokens
      exact absurd (List.length_eq_zero_iff.mp (by omega)) hne
    · have hrecalls : buffer.recalls = buffer.recalls + 1 := congrArg Snapshot.recalls hsame
      omega
  · rintro rfl
    rfl

end Snapshot

namespace Transform

open Text

variable {σ : Type} {t : Transform} {tokens : List Token} {buffer : TokenBuffer} {call : Call}

-- Whether a call takes tokens back: it gives a chunk to a transform that may do so, has not ended
-- and holds tokens.
def Retracts (t : Transform) (call : Call) : Prop :=
  t.allowRecalls = true ∧ t.finished = false ∧ t.live ≠ [] ∧
    ∃ chunk, chunk ≠ "" ∧ call = .push chunk

theorem not_retracts_flush (t : Transform) : ¬ t.Retracts .flush := by
  rintro ⟨-, -, -, chunk, -, he⟩
  cases he

theorem not_retracts_of_idle {chunk : String} (h : t.finished = true ∨ chunk = "") :
    ¬ t.Retracts (.push chunk) := by
  rintro ⟨-, hf, -, chunk', hc, he⟩
  obtain rfl := Call.push.inj he
  rcases h with hf' | rfl
  · exact Bool.false_ne_true (hf.symm.trans hf')
  · exact hc rfl

theorem Recalling.flush_batches (h : Recalling t) (parser : SyntaxParser σ) (s : σ) :
    (t.flush parser s).1 = [] := by
  by_cases hf : t.finished = true
  · rw [flush_of_finished hf]
  · rw [h.flush_eq (by simpa using hf)]

theorem Recalling.push_live_ne_nil (h : Recalling t) (hf : t.finished = false) {chunk : String}
    (hc : chunk ≠ "") (parser : SyntaxParser σ) (s : σ) :
    (t.push parser chunk s).2.1.live ≠ [] := by
  rw [h.push_live hf hc]
  exact List.ne_nil_of_length_pos (Nat.zero_lt_of_lt (h.retainedLength_lt parser s hc true))

-- What a call comes to: a retraction with what replaces it, or at most one batch of tokens.
theorem Shows.step_cases (h : t.Shows tokens) (parser : SyntaxParser σ) (call : Call) (s : σ) :
    (t.Retracts call ∧ ∃ n ts, (t.step parser call s).1 = [.retract n, .tokens ts]) ∨
      (¬ t.Retracts call ∧ Batch.AtMostOne (t.step parser call s).1) := by
  rcases h with ⟨hrecalling, -⟩ | hdelivering
  · cases call with
    | flush => exact Or.inr ⟨not_retracts_flush t, Or.inl (hrecalling.flush_batches parser s)⟩
    | push chunk =>
      rcases t.idle_or_taken chunk with hi | ⟨hf, hc⟩
      · exact Or.inr ⟨not_retracts_of_idle hi, Or.inl (congrArg Prod.fst (push_of_idle hi))⟩
      · by_cases hnil : t.live = []
        · refine Or.inr ⟨fun hr => hr.2.2.1 hnil, Or.inr ⟨_, ?_, hrecalling.push_of_nil hf hc hnil⟩⟩
          exact mt themed_eq_nil_iff.mp (hrecalling.push_live_ne_nil hf hc parser s)
        · have hr : t.Retracts (.push chunk) := ⟨hrecalling.recalls, hf, hnil, chunk, hc, rfl⟩
          exact Or.inl ⟨hr, _, _, hrecalling.push_of_ne_nil hf hc hnil⟩
  · refine Or.inr ⟨fun hr => ?_, (hdelivering.step parser call s).2⟩
    exact Bool.false_ne_true (hdelivering.stable.symm.trans hr.1)

theorem Shows.recalls_step (h : t.Shows buffer.tokens) (parser : SyntaxParser σ) (call : Call)
    (s : σ) :
    (t.Retracts call ∧ (buffer.applyAll (t.step parser call s).1).recalls = buffer.recalls + 1) ∨
      (¬ t.Retracts call ∧
        (buffer.applyAll (t.step parser call s).1).recalls = buffer.recalls) := by
  rcases h.step_cases parser call s with ⟨hr, n, ts, hb⟩ | ⟨hr, hb | ⟨ts, -, hb⟩⟩
  · exact Or.inl ⟨hr, by rw [hb]; rfl⟩
  · exact Or.inr ⟨hr, by rw [hb]; rfl⟩
  · exact Or.inr ⟨hr, by rw [hb]; rfl⟩

theorem exists_step_source (parser : SyntaxParser σ) (t : Transform) (call : Call) (s : σ) :
    ∃ more, (t.step parser call s).2.1.source = t.source ++ more := by
  cases call with
  | flush =>
    obtain ⟨_, _, he⟩ := exists_flush_state parser t s
    exact ⟨"", by rw [Transform.step, he, String.append_empty]⟩
  | push chunk =>
    obtain ⟨_, _, _, he⟩ := exists_push_state parser t chunk s
    refine ⟨if t.finished then "" else chunk, ?_⟩
    rw [Transform.step, he]
    cases t.finished with
    | true => exact String.append_empty.symm
    | false => rfl

-- A consumer never has less text than before, even if tokens were taken back.
theorem Shows.text_step_le (h : t.Shows buffer.tokens) (parser : SyntaxParser σ) (call : Call)
    (s : σ) :
    buffer.text.utf8ByteSize ≤ (buffer.applyAll (t.step parser call s).1).text.utf8ByteSize := by
  rcases h with ⟨hrecalling, htokens⟩ | hdelivering
  · have hbefore := Shows.text (Or.inl ⟨hrecalling, htokens⟩)
    have hafter := (Shows.step (Or.inl ⟨hrecalling, htokens⟩) parser call s).text
    rw [hrecalling.recalls] at hbefore
    rw [allowRecalls_step, hrecalling.recalls] at hafter
    rw [TokenBuffer.text, TokenBuffer.text, hbefore, hafter]
    obtain ⟨more, hmore⟩ := exists_step_source parser t call s
    simp only [Bool.true_or, if_true, hmore, String.utf8ByteSize_append]
    exact Nat.le_add_right _ _
  · rw [TokenBuffer.text, TokenBuffer.text,
      TokenBuffer.tokens_applyAll_of_atMostOne (hdelivering.step parser call s).2, List.map_append,
      String.join_append, String.utf8ByteSize_append]
    exact Nat.le_add_right _ _

-- Three counters are enough to notice every emission. Whatever the parser answers, no call takes
-- tokens back and puts as many tokens and bytes in their place without a recall that is counted.
theorem snapshot_notices_emission {tokenizer : Tokenizer} {language : Language} {themeId : String}
    {recalls : Bool} {start : Transform}
    (hnew : Transform.new tokenizer language themeId recalls = .ok start)
    (parser : SyntaxParser σ) (calls : List Call) (call : Call) (s : σ) :
    let reached := start.run parser calls s
    let next := reached.2.1.step parser call reached.2.2
    let buffer := TokenBuffer.empty.applyAll reached.1
    let before := Snapshot.ofBuffer buffer
    let after := Snapshot.ofBuffer (buffer.applyAll next.1)
    (before.diff after = none ↔ next.1 = []) ∧
      before.bytes = buffer.text.utf8ByteSize ∧
      after.bytes = (buffer.applyAll next.1).text.utf8ByteSize ∧
      before.bytes ≤ after.bytes ∧
      (after.recalls = before.recalls ∨ after.recalls = before.recalls + 1) ∧
      (after.recalls = before.recalls + 1 ↔
        recalls = true ∧ reached.2.1.finished = false ∧ reached.2.1.live ≠ [] ∧
          ∃ chunk, chunk ≠ "" ∧ call = .push chunk) := by
  intro reached next buffer before after
  have hempty : start.Shows TokenBuffer.empty.tokens := shows_of_new hnew
  have hshows : reached.2.1.Shows buffer.tokens := hempty.run parser calls s
  have hmode : reached.2.1.allowRecalls = recalls := by
    apply holds_of_run (P := fun t => t.allowRecalls = recalls)
    · obtain ⟨theme, -, rfl⟩ := exists_of_new hnew
      rfl
    · intro t ht call s
      rw [allowRecalls_step, ht]
  have hrecalls := hshows.recalls_step parser call reached.2.2
  refine ⟨?_, Snapshot.bytes_ofBuffer _, Snapshot.bytes_ofBuffer _, ?_, ?_, ?_⟩
  · apply Snapshot.diff_applyAll_eq_none_iff
    rcases hshows.step_cases parser call reached.2.2 with ⟨-, hb⟩ | ⟨-, hb⟩
    · exact Or.inr hb
    · exact Or.inl hb
  · rw [Snapshot.bytes_ofBuffer, Snapshot.bytes_ofBuffer]
    exact hshows.text_step_le parser call reached.2.2
  · exact hrecalls.symm.imp And.right And.right
  · rw [← hmode]
    rcases hrecalls with ⟨hr, hmore⟩ | ⟨hr, hsame⟩
    · exact iff_of_true hmore hr
    · exact iff_of_false (fun hmore => Nat.succ_ne_self _ (hmore.symm.trans hsame)) hr

-- The second chunk replaces the one token by one of another length. Then nothing is left to emit.
theorem snapshot_notices_emission_rust :
    let answers : Recording := ⟨[.parsed [], .parsed []], [[⟨0, 2, 0, "keyword"⟩], []], false⟩
    let reached := (bare .rust true).run Recording.player [.push "fn"] answers
    let next := reached.2.1.push Recording.player "x" reached.2.2
    let buffer := TokenBuffer.empty.applyAll reached.1
    let before := Snapshot.ofBuffer buffer
    let after := Snapshot.ofBuffer (buffer.applyAll next.1)
    Transform.new (Tokenizer.bare .rust) .rust "bare" true = .ok (bare .rust true) ∧
      before.diff after ≠ none ∧ after.recalls = before.recalls + 1 ∧
      before.bytes ≤ after.bytes := by
  intro answers reached next buffer before after
  obtain ⟨hdiff, -, -, hbytes, -, hrecalls⟩ := snapshot_notices_emission (new_bare .rust true)
    Recording.player [.push "fn"] (.push "x") answers
  have hnext : next.1 ≠ [] := by decide +kernel
  have hfinished : reached.2.1.finished = false := by decide +kernel
  have hlive : reached.2.1.live ≠ [] := by decide +kernel
  exact ⟨new_bare .rust true, fun hnone => hnext (hdiff.mp hnone),
    hrecalls.mpr ⟨rfl, hfinished, hlive, "x", by decide, rfl⟩, hbytes⟩

end Transform

end SyntaxStream
