import SyntaxStream.Proofs.Transform.Recall

namespace SyntaxStream.Transform

open Text Segment

variable {σ : Type} {parser : SyntaxParser σ} {t : Transform} {chunk : String} {s : σ}

-- What is retained ends within the old text, so that a chunk always leads to new tokens.
theorem Recalling.retainedLength_lt (h : Recalling t) (parser : SyntaxParser σ) (s : σ)
    (hc : chunk ≠ "") (provisional : Bool) :
    retainedLength t.live (t.liveAfter parser chunk s) provisional <
      (t.liveAfter parser chunk s).length := by
  have hnew := h.tiles_liveAfter parser chunk s
  have hcommon := retainedLength_le_common t.live (t.liveAfter parser chunk s) provisional
  have hle := retainedLength_le_right t.live (t.liveAfter parser chunk s) provisional
  generalize retainedLength t.live (t.liveAfter parser chunk s) provisional = retained at *
  refine Nat.lt_of_le_of_ne hle fun he => ?_
  -- all new spans would be old ones, and would tile the old text and the new one
  have htake : t.live.take retained = t.liveAfter parser chunk s := by
    rw [take_eq_take_of_le hcommon, he, List.take_length]
  have hold := h.tiles
  rw [← List.take_append_drop retained t.live] at hold
  obtain ⟨m, hretained, hrest⟩ := hold.exists_of_append
  have hlonger := hretained.append_text chunk.toList
  rw [htake, ← String.toList_append] at hlonger
  have hm := hlonger.stop_unique hnew
  have hend := hrest.le
  have hpos := utf8ByteSize_pos hc
  rw [String.utf8ByteSize_append] at hm
  omega

theorem Recalling.push_live (h : Recalling t) (hf : t.finished = false) (hc : chunk ≠ "") :
    (t.push parser chunk s).2.1.live = t.liveAfter parser chunk s := by
  rw [h.push_eq hf hc]

theorem Recalling.push_of_nil (h : Recalling t) (hf : t.finished = false) (hc : chunk ≠ "")
    (hnil : t.live = []) :
    (t.push parser chunk s).1 =
      [.tokens ((t.push parser chunk s).2.1.themed (t.push parser chunk s).2.1.live)] := by
  have hlt := h.retainedLength_lt parser s hc true
  have hlength : t.live.length = 0 := by rw [hnil, List.length_nil]
  have hzero : retainedLength t.live (t.liveAfter parser chunk s) true = 0 := by
    rw [retainedLength_provisional]
    omega
  rw [hzero] at hlt
  simp only [h.push_eq hf hc, replacement, hzero, hlt, hlength, Nat.lt_irrefl, if_false, if_true,
    List.nil_append, List.drop_zero]
  rfl

-- A later chunk retracts what is not retained, at least the last token, and replaces it.
theorem Recalling.push_of_ne_nil (h : Recalling t) (hf : t.finished = false) (hc : chunk ≠ "")
    (hne : t.live ≠ []) :
    (t.push parser chunk s).1 =
      [.retract (t.live.length - retainedLength t.live (t.liveAfter parser chunk s) true),
        .tokens ((t.push parser chunk s).2.1.themed ((t.liveAfter parser chunk s).drop
          (retainedLength t.live (t.liveAfter parser chunk s) true)))] := by
  have hlt := h.retainedLength_lt parser s hc true
  have hpos : 0 < t.live.length := List.length_pos_iff.mpr hne
  have hlast : retainedLength t.live (t.liveAfter parser chunk s) true < t.live.length := by
    rw [retainedLength_provisional]
    omega
  simp only [h.push_eq hf hc, replacement, hlast, hlt, if_true]
  rfl

theorem le_retainedLength {old new : List Span} {k : Nat} (hk : k < old.length)
    (hp : old.take k <+: new) : k ≤ retainedLength old new true := by
  have hcommon := (prefix_longestCommonPrefix_iff.mpr ⟨List.take_prefix k old, hp⟩).length_le
  rw [List.length_take] at hcommon
  rw [retainedLength_provisional]
  omega

theorem Recalling.lt_retainedLength (h : Recalling t) (parser : SyntaxParser σ) (chunk : String)
    (s : σ) (hne : t.live ≠ []) (i : Nat) (hi : i < t.live.length)
    (hstop : t.live[i].stop ≤ min (t.earliestChange parser chunk s) (t.live.getLast hne).start) :
    i < retainedLength t.live (t.liveAfter parser chunk s) true := by
  obtain ⟨hasTree, he⟩ := exists_reparse_eq parser t chunk s
  have htiles := h.tiles_reparse parser chunk s
  have hsize := (h.tiles.bounds_of_mem (List.getElem_mem hi)).2.2
  have hdoubt := doubtFrom_reparse parser chunk s hne
  rw [String.utf8ByteSize_append] at hdoubt
  have hbefore : t.live[i].stop ≤
      (t.reparse parser chunk s).2.1.doubtFrom (t.reparse parser chunk s).1 true := by omega
  rw [liveAfter]
  generalize (t.reparse parser chunk s).1 = changedFrom at *
  rw [he] at htiles hbefore ⊢
  exact Nat.lt_of_lt_of_le (lt_length_kept htiles hi hbefore) (length_kept_le htiles _)

-- The longest common prefix of the old and the new live spans is kept, but for the last old span;
-- that one is provisional and retracted by every chunk. The end of the input changes nothing.
theorem retraction_minimal {tokenizer : Tokenizer} {language : Language} {themeId : String}
    {start : Transform} (hnew : Transform.new tokenizer language themeId true = .ok start)
    (parser : SyntaxParser σ) (calls : List Call) (s : σ) :
    let reached := (start.run parser calls s).2
    (∀ chunk, reached.1.finished = false → chunk ≠ "" →
      let pushed := reached.1.push parser chunk reached.2
      let old := reached.1.live
      let new := pushed.2.1.live
      (old = [] → pushed.1 = [.tokens (pushed.2.1.themed new)]) ∧
      ∀ hold : old ≠ [], ∃ n ts,
        pushed.1 = [.retract n, .tokens ts] ∧
        ts ≠ [] ∧
        n = old.length - min (longestCommonPrefix old new).length (old.length - 1) ∧
        1 ≤ n ∧
        ts = pushed.2.1.themed (new.drop (old.length - n)) ∧
        (∀ k < old.length, old.take k <+: new → k ≤ old.length - n) ∧
        ∀ i (hi : i < old.length),
          old[i].stop ≤ min (reached.1.earliestChange parser chunk reached.2)
            (old.getLast hold).start → i < old.length - n) ∧
    (reached.1.flush parser reached.2).1 = [] := by
  have h := (recalling_of_new hnew).run parser calls s
  refine ⟨fun chunk hf hc => ⟨h.push_of_nil hf hc, fun hold => ?_⟩, ?_⟩
  · have hlength := List.length_pos_iff.mpr hold
    have hlt := h.retainedLength_lt parser (start.run parser calls s).2.2 hc true
    have hearly := h.lt_retainedLength parser chunk (start.run parser calls s).2.2 hold
    rw [h.push_live hf hc, h.push_of_ne_nil hf hc hold]
    generalize (start.run parser calls s).2.1.liveAfter parser chunk
      (start.run parser calls s).2.2 = new at *
    have hformula := retainedLength_provisional (start.run parser calls s).2.1.live new
    refine ⟨_, _, rfl, ?_, by rw [hformula], by omega, ?_, fun k hk hp => ?_,
      fun i hi hstop => ?_⟩
    · rw [Ne, themed_eq_nil_iff, List.drop_eq_nil_iff]
      omega
    · rw [Nat.sub_sub_self (by omega)]
    · rw [Nat.sub_sub_self (by omega)]
      exact le_retainedLength hk hp
    · rw [Nat.sub_sub_self (by omega)]
      exact hearly i hi hstop
  · by_cases hf : (start.run parser calls s).2.1.finished = true
    · rw [flush_of_finished hf]
    · rw [h.flush_eq (by simpa using hf)]

-- The last token grows with the next chunk; the ones before it stay.
theorem retraction_minimal_rust :
    let answers : Recording := ⟨[.parsed [], .parsed [⟨3, 5⟩]],
      [[⟨0, 2, 0, "keyword"⟩], [⟨3, 5, 0, "function"⟩]], false⟩
    let reached := ((bare .rust true).run Recording.player [.push "fn a"] answers).2
    let pushed := reached.1.push Recording.player "b" reached.2
    Transform.new (Tokenizer.bare .rust) .rust "bare" true = .ok (bare .rust true) ∧
      reached.1.finished = false ∧ reached.1.live.length = 2 ∧
      ∃ n ts, pushed.1 = [.retract n, .tokens ts] ∧ ts ≠ [] ∧ 1 ≤ n := by
  intro answers reached pushed
  have hf : reached.1.finished = false := by decide +kernel
  have hlength : reached.1.live.length = 2 := by decide +kernel
  have hold : reached.1.live ≠ [] := List.ne_nil_of_length_eq_add_one hlength
  obtain ⟨hpush, -⟩ :=
    retraction_minimal (new_bare .rust true) Recording.player [.push "fn a"] answers
  obtain ⟨n, ts, hbatches, hts, -, hn, -⟩ := (hpush "b" hf (by decide)).2 hold
  exact ⟨new_bare .rust true, hf, hlength, n, ts, hbatches, hts, hn⟩

end SyntaxStream.Transform
