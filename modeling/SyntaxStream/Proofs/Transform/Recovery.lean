import SyntaxStream.Proofs.Transform.Incremental
import SyntaxStream.Proofs.Transform.Retraction

namespace SyntaxStream.Transform

open Text Segment

variable {σ : Type} {parser : SyntaxParser σ} {t : Transform} {chunk : String} {s : σ}
  {raw : List RawCapture}

theorem keptSpans_of_all_changed {b : Nat} (h : Tiles (cells t.source.toList) t.live 0 b)
    (provisional : Bool) : t.keptSpans (some 0) provisional = [] := by
  have hdoubt : t.doubtFrom (some 0) provisional = 0 := by
    simp only [doubtFrom, Option.getD_some, Nat.zero_min]
    split <;> rfl
  apply List.eq_nil_iff_forall_not_mem.mpr
  intro span hm
  have hstop := List.mem_takeWhile_imp hm
  have hlt := (h.bounds_of_mem ((List.takeWhile_sublist _).subset hm)).2.1
  rw [hdoubt, decide_eq_true_eq] at hstop
  omega

-- If nothing has changed all live spans but the last are kept.
theorem keptSpans_of_none_changed {b : Nat} (h : Tiles (cells t.source.toList) t.live 0 b)
    (hb : b ≤ t.source.utf8ByteSize) : t.keptSpans none true = t.live.dropLast := by
  by_cases hne : t.live = []
  · simp [keptSpans, hne]
  · obtain ⟨front, last, hl⟩ := (List.eq_nil_or_concat t.live).resolve_left hne
    rw [List.concat_eq_append] at hl
    have hlast := (h.bounds_of_mem (show last ∈ t.live by simp [hl])).2
    have hdoubt : t.doubtFrom none true = last.start := by
      simp only [doubtFrom, hl, List.getLast?_concat, Option.getD_none]
      omega
    rw [keptSpans, hdoubt, hl, List.dropLast_concat]
    rw [hl] at h
    exact h.takeWhile_concat

-- What holds of a transform that is bound to a loaded language with a grammar.
structure Grammatical (t : Transform) : Prop where
  supports : t.tokenizer.supports t.language = true
  grammar : t.language.hasGrammar = true
  parsed : t.parsed = true

theorem grammatical_of_new {tokenizer : Tokenizer} {language : Language} {themeId : String}
    {recalls : Bool} (h : Transform.new tokenizer language themeId recalls = .ok t)
    (hg : language.hasGrammar = true) : Grammatical t := by
  obtain ⟨theme, hs, rfl⟩ := exists_of_new h
  exact ⟨hs, hg, hg⟩

theorem Grammatical.step (h : Grammatical t) (parser : SyntaxParser σ) (call : Call) (s : σ) :
    Grammatical (t.step parser call s).2.1 := by
  obtain ⟨_, _, _, _, _, he⟩ := exists_step_state parser t call s
  rw [he]
  exact ⟨h.supports, h.grammar, h.parsed⟩

theorem Grammatical.push (h : Grammatical t) (parser : SyntaxParser σ) (chunk : String) (s : σ) :
    Grammatical (t.push parser chunk s).2.1 :=
  h.step parser (.push chunk) s

theorem Grammatical.run (h : Grammatical t) (parser : SyntaxParser σ) (calls : List Call) (s : σ) :
    Grammatical (t.run parser calls s).2.1 :=
  holds_of_run h (fun _ h call s => h.step parser call s) calls s

theorem push_taken_up (parser : SyntaxParser σ) (hf : t.finished = false) (chunk : String) (s : σ) :
    (t.push parser chunk s).2.1.source = t.source ++ chunk ∧
      (t.push parser chunk s).2.1.finished = false ∧
      (t.push parser chunk s).2.1.setup = t.setup := by
  obtain ⟨_, _, _, he⟩ := exists_push_state parser t chunk s
  rw [he]
  simp only [hf, Bool.false_eq_true, if_false, setup, and_self]

-- After a failed parse there is no tree, and all of the text is plain.
theorem Recalling.push_of_failed (h : Recalling t) (hg : Grammatical t) (hf : t.finished = false)
    (hc : chunk ≠ "") (ha : (parser.parse (t.source ++ chunk) s).1 = .failed) :
    (t.push parser chunk s).2.1.hasTree = false ∧
      ∀ span ∈ (t.push parser chunk s).2.1.live, span.highlight = none := by
  have hr : t.reparse parser chunk s = _ := reparse_of_failed hg.parsed (Prod.ext ha rfl)
  have htiles := h.tiles_reparse parser chunk s
  refine ⟨by rw [h.push_eq hf hc, hr], ?_⟩
  rw [h.push_live hf hc, liveAfter]
  rw [hr] at htiles ⊢
  rw [renewed, keptSpans_of_all_changed htiles, List.nil_append]
  exact fun span hm => Tokenizer.highlight_of_mem_segment hm

-- A chunk with which the text is parsed while there is no tree of what came before.
structure Recovering (parser : SyntaxParser σ) (t : Transform) (chunk : String) (s : σ) : Prop where
  recalling : Recalling t
  grammatical : Grammatical t
  unfinished : t.finished = false
  treeless : t.hasTree = false
  more : chunk ≠ ""
  parses : (parser.parse (t.source ++ chunk) s).1 ≠ .failed

namespace Recovering

theorem exists_parsed (h : Recovering parser t chunk s) :
    ∃ changed s', parser.parse (t.source ++ chunk) s = (.parsed changed, s') := by
  rcases hp : parser.parse (t.source ++ chunk) s with ⟨_ | changed, s'⟩
  · exact absurd (congrArg Prod.fst hp) h.parses
  · exact ⟨changed, s', rfl⟩

-- Without an earlier tree a parse tells no change, and only the last live span is doubted.
theorem keptSpans_eq (h : Recovering parser t chunk s) :
    (t.reparse parser chunk s).2.1.keptSpans (t.reparse parser chunk s).1 true =
      t.live.dropLast := by
  obtain ⟨changed, s', hp⟩ := h.exists_parsed
  have htiles := h.recalling.tiles_reparse parser chunk s
  rw [reparse_of_parsed h.grammatical.parsed hp, h.treeless] at htiles ⊢
  refine keptSpans_of_none_changed htiles ?_
  simp only [String.utf8ByteSize_append]
  omega

theorem dropLast_prefix (h : Recovering parser t chunk s) :
    t.live.dropLast <+: t.liveAfter parser chunk s := by
  rw [liveAfter, renewed, h.keptSpans_eq]
  exact List.prefix_append _ _

theorem exists_batches (h : Recovering parser t chunk s) (hne : t.live ≠ []) :
    ∃ tokens, (t.push parser chunk s).1 = [.retract 1, .tokens tokens] := by
  have hlength := List.length_pos_iff.mpr hne
  have hkept := h.dropLast_prefix
  rw [List.dropLast_eq_take] at hkept
  have hle := le_retainedLength (by omega) hkept
  have hformula := retainedLength_provisional t.live (t.liveAfter parser chunk s)
  have hone : t.live.length - retainedLength t.live (t.liveAfter parser chunk s) true = 1 := by
    omega
  exact ⟨_, by rw [h.recalling.push_of_ne_nil h.unfinished h.more hne, hone]⟩

-- The whole text comes out right only if the kept spans were right without a tree.
theorem liveAfter_eq_oneShot_iff (h : Recovering parser t chunk s)
    (hanswers : ∀ query ∈ t.asked parser chunk s,
      query.answer = raw.filter (·.overlaps query.window)) :
    t.liveAfter parser chunk s = t.tokenizer.oneShot t.language (t.source ++ chunk) raw ↔
      t.live.dropLast ⊆ t.tokenizer.oneShot t.language (t.source ++ chunk) raw := by
  obtain ⟨changed, s', hp⟩ := h.exists_parsed
  obtain ⟨hs, hg, hparsed⟩ := h.grammatical
  constructor
  · intro heq
    rw [← heq]
    exact h.dropLast_prefix.subset
  · intro hsubset
    rw [← h.keptSpans_eq] at hsubset
    exact h.recalling.liveAfter_eq_oneShot h.unfinished hs hg hparsed h.more hp hanswers hsubset

end Recovering

-- When a push could not be parsed and the next one can, the plain text of the failure stays, but
-- for its last span. The tokens are those of the whole text only if that does not matter.
theorem recovery_renews_last_span {tokenizer : Tokenizer} {language : Language} {themeId : String}
    {start : Transform} (hnew : Transform.new tokenizer language themeId true = .ok start)
    (hg : language.hasGrammar = true) (parser : SyntaxParser σ) (calls : List Call) (s : σ) :
    let reached := (start.run parser calls s).2
    ∀ chunk more raw, reached.1.finished = false → chunk ≠ "" → more ≠ "" →
      let failed := (reached.1.push parser chunk reached.2).2
      let recovered := failed.1.push parser more failed.2
      let text := reached.1.source ++ chunk ++ more
      (parser.parse (reached.1.source ++ chunk) reached.2).1 = .failed →
      (parser.parse text failed.2).1 ≠ .failed →
      (∀ query ∈ failed.1.asked parser more failed.2,
        query.answer = raw.filter (·.overlaps query.window)) →
      (∀ span ∈ failed.1.live, span.highlight = none) ∧
      failed.1.live.dropLast <+: recovered.2.1.live ∧
      (∃ tokens, recovered.1 = [.retract 1, .tokens tokens]) ∧
      (recovered.2.1.live = tokenizer.oneShot language text raw ↔
        failed.1.live.dropLast ⊆ tokenizer.oneShot language text raw) := by
  intro reached chunk more raw hf hc hm failed recovered text ha hp hanswers
  have h : Recalling reached.1 := (recalling_of_new hnew).run parser calls s
  have hgrammar : Grammatical reached.1 := (grammatical_of_new hnew hg).run parser calls s
  have hfailed : Recalling failed.1 := h.push parser chunk reached.2
  obtain ⟨htree, hplain⟩ := h.push_of_failed hgrammar hf hc ha
  obtain ⟨hsource, hopen, hsetup⟩ := push_taken_up parser hf chunk reached.2
  have hnext : Recovering parser failed.1 more failed.2 := by
    refine ⟨hfailed, hgrammar.push parser chunk reached.2, hopen, htree, hm, ?_⟩
    rw [hsource]
    exact hp
  have hne : failed.1.live ≠ [] := by
    rw [Ne, hfailed.live_eq_nil_iff, hsource, String.append_eq_empty_iff]
    exact fun hempty => hc hempty.2
  have hbound : tokenizer.oneShot language text raw =
      failed.1.tokenizer.oneShot failed.1.language (failed.1.source ++ more) raw := by
    have hstart := hsetup.trans (run_setup parser start calls s)
    obtain ⟨theme, -, rfl⟩ := exists_of_new hnew
    simp only [setup, Prod.mk.injEq] at hstart
    rw [hstart.1, hstart.2.1, hsource]
  rw [hfailed.push_live hopen hm, hbound]
  exact ⟨hplain, hnext.dropLast_prefix, hnext.exists_batches hne,
    hnext.liveAfter_eq_oneShot_iff hanswers⟩

-- The comment is complete when the second chunk comes, but its first line stays plain.
theorem recovery_renews_last_span_rust :
    let raw : List RawCapture := [⟨0, 9, 0, "comment"⟩]
    let answers : Recording := ⟨[.failed, .parsed []], [raw], false⟩
    let reached := ((bare .rust true).run Recording.player [] answers).2
    let failed := (reached.1.push Recording.player "/* a\n" reached.2).2
    let recovered := failed.1.push Recording.player "b */" failed.2
    Transform.new (Tokenizer.bare .rust) .rust "bare" true = .ok (bare .rust true) ∧
      (∀ query ∈ failed.1.asked Recording.player "b */" failed.2,
        query.answer = raw.filter (·.overlaps query.window)) ∧
      failed.1.live.dropLast <+: recovered.2.1.live ∧
      ∃ tokens, recovered.1 = [.retract 1, .tokens tokens] := by
  intro raw answers reached failed recovered
  have hanswers : ∀ query ∈ failed.1.asked Recording.player "b */" failed.2,
      query.answer = raw.filter (·.overlaps query.window) := by decide +kernel
  have hfailed : (Recording.player.parse (reached.1.source ++ "/* a\n") reached.2).1 = .failed := by
    decide +kernel
  have hparsed : (Recording.player.parse (reached.1.source ++ "/* a\n" ++ "b */") failed.2).1 ≠
      .failed := by decide +kernel
  have hopen : reached.1.finished = false := rfl
  have hgrammar : Language.rust.hasGrammar = true := rfl
  have hchunk : "/* a\n" ≠ "" := by decide
  have hmore : "b */" ≠ "" := by decide
  -- the runs are compared as they are written, and not evaluated
  with_reducible
    obtain ⟨-, hkept, hbatches, -⟩ := recovery_renews_last_span (new_bare .rust true) hgrammar
      Recording.player [] answers "/* a\n" "b */" raw hopen hchunk hmore hfailed hparsed hanswers
    exact ⟨new_bare .rust true, hanswers, hkept, hbatches⟩

-- So the tokens after it are not those of the whole text.
theorem recovered_ne_oneShot :
    let raw : List RawCapture := [⟨0, 9, 0, "comment"⟩]
    let answers : Recording := ⟨[.failed, .parsed []], [raw], false⟩
    let failed := ((bare .rust true).push Recording.player "/* a\n" answers).2
    let recovered := failed.1.push Recording.player "b */" failed.2
    Transform.new (Tokenizer.bare .rust) .rust "bare" true = .ok (bare .rust true) ∧
      (Recording.player.parse "/* a\n" answers).1 = .failed ∧
      (Recording.player.parse "/* a\nb */" failed.2).1 ≠ .failed ∧
      (∀ query ∈ failed.1.asked Recording.player "b */" failed.2,
        query.answer = raw.filter (·.overlaps query.window)) ∧
      recovered.2.1.live ≠ (Tokenizer.bare .rust).oneShot .rust "/* a\nb */" raw :=
  ⟨new_bare .rust true, by decide +kernel⟩

end SyntaxStream.Transform
