import SyntaxStream.Proofs.Transform.Queries
import SyntaxStream.Proofs.Transform.View

namespace SyntaxStream.Transform

open Text Segment

variable {σ : Type} {parser : SyntaxParser σ} {t : Transform} {chunk : String} {s : σ}
  {old new : List RawCapture}

-- What a parser has to do when a chunk is pushed, if its trees of the text before and after have
-- the given captures: it parses, it answers every query with the captures that overlap the window,
-- and before the first change it reports the old spans are spans of the new text. The last old span
-- ends where the old text did, and nothing is asked of it.
structure FaithfulPush (parser : SyntaxParser σ) (t : Transform) (old : List RawCapture)
    (chunk : String) (new : List RawCapture) (s : σ) : Prop where
  more : chunk ≠ ""
  parses : ∃ changed s', parser.parse (t.source ++ chunk) s = (.parsed changed, s')
  answers : ∀ query ∈ t.asked parser chunk s, query.answer = new.filter (·.overlaps query.window)
  sound : ∀ hne : t.tokenizer.oneShot t.language t.source old ≠ [],
    ∀ span ∈ t.tokenizer.oneShot t.language t.source old,
      span.stop ≤ min (t.earliestChange parser chunk s)
        ((t.tokenizer.oneShot t.language t.source old).getLast hne).start →
      span ∈ t.tokenizer.oneShot t.language (t.source ++ chunk) new

-- A parser that is faithful on each of some chunks. Next to each chunk stand the captures of the
-- text up to its end.
def FaithfulRun (parser : SyntaxParser σ) (t : Transform) (old : List RawCapture) (s : σ) :
    List (String × List RawCapture) → Prop
  | [] => True
  | (chunk, new) :: rest =>
      FaithfulPush parser t old chunk new s ∧
        FaithfulRun parser (t.push parser chunk s).2.1 new (t.push parser chunk s).2.2 rest

-- The captures of the text when some chunks have been pushed: those of the last chunk.
def latest : List RawCapture → List (String × List RawCapture) → List RawCapture
  | old, [] => old
  | _, (_, new) :: rest => latest new rest

-- What holds of a transform whose parser has been faithful: its live spans are those of the whole
-- text parsed at once.
structure UpToDate (t : Transform) (raw : List RawCapture) : Prop where
  recalling : Recalling t
  supports : t.tokenizer.supports t.language = true
  grammar : t.language.hasGrammar = true
  parsed : t.parsed = true
  unfinished : t.finished = false
  live : t.live = t.tokenizer.oneShot t.language t.source raw

theorem UpToDate.kept_subset (h : UpToDate t old) (hp : FaithfulPush parser t old chunk new s) :
    (t.reparse parser chunk s).2.1.keptSpans (t.reparse parser chunk s).1 true ⊆
      t.tokenizer.oneShot t.language (t.source ++ chunk) new := by
  obtain ⟨hasTree, he⟩ := exists_reparse_eq parser t chunk s
  have hlive : (t.reparse parser chunk s).2.1.live = t.live := by rw [he]
  intro span hm
  have hold : span ∈ t.live := hlive ▸ (List.takeWhile_sublist _).subset hm
  have hne : t.live ≠ [] := List.ne_nil_of_mem hold
  have hstop := List.mem_takeWhile_imp hm
  rw [doubtFrom_reparse parser chunk s hne, decide_eq_true_eq] at hstop
  have hsound := hp.sound
  simp only [← h.live] at hsound
  exact hsound hne span hold (by omega)

theorem Recalling.resumeAt_lt (h : Recalling t) (parser : SyntaxParser σ) (s : σ)
    (hc : chunk ≠ "") :
    (t.reparse parser chunk s).2.1.resumeAt (t.reparse parser chunk s).1 true <
      (t.source ++ chunk).utf8ByteSize := by
  have hle := resumeAt_le (t.reparse parser chunk s).1 true (h.tiles_reparse parser chunk s)
  have hpos := utf8ByteSize_pos hc
  rw [String.utf8ByteSize_append]
  omega

-- If what is kept are spans of the whole text, the window behind them makes up the rest of it.
theorem Recalling.liveAfter_eq_oneShot (h : Recalling t) (hf : t.finished = false)
    (hs : t.tokenizer.supports t.language = true) (hg : t.language.hasGrammar = true)
    (hp : t.parsed = true) (hc : chunk ≠ "") {changed : List Window} {s' : σ}
    (ha : parser.parse (t.source ++ chunk) s = (.parsed changed, s'))
    (hanswers : ∀ query ∈ t.asked parser chunk s,
      query.answer = new.filter (·.overlaps query.window))
    (hkept : (t.reparse parser chunk s).2.1.keptSpans (t.reparse parser chunk s).1 true ⊆
      t.tokenizer.oneShot t.language (t.source ++ chunk) new) :
    t.liveAfter parser chunk s = t.tokenizer.oneShot t.language (t.source ++ chunk) new := by
  have htiles := tiles_kept (t.reparse parser chunk s).1 true (h.tiles_reparse parser chunk s)
  have hlt := h.resumeAt_lt parser s hc
  rw [asked_eq h.recalls hf hp hc hs hg ha hlt] at hanswers
  -- the answer to the only query of the push, for the window behind what is kept
  have hanswer := hanswers _ (List.mem_singleton_self _)
  rw [liveAfter, renewed, resegmented]
  simp only [reparse_of_parsed hp ha] at *
  exact Tokenizer.segment_of_prefix_oneShot hs hg htiles
    (htiles.prefix_of_subset (Tokenizer.tiles_oneShot new) hkept) hlt hanswer

theorem UpToDate.liveAfter_eq (h : UpToDate t old) (hp : FaithfulPush parser t old chunk new s) :
    t.liveAfter parser chunk s = t.tokenizer.oneShot t.language (t.source ++ chunk) new := by
  obtain ⟨changed, s', ha⟩ := hp.parses
  exact h.recalling.liveAfter_eq_oneShot h.unfinished h.supports h.grammar h.parsed hp.more ha
    hp.answers (h.kept_subset hp)

theorem UpToDate.push (h : UpToDate t old) (hp : FaithfulPush parser t old chunk new s) :
    UpToDate (t.push parser chunk s).2.1 new := by
  obtain ⟨hasTree, he⟩ := exists_reparse_eq parser t chunk s
  have hlive := h.liveAfter_eq hp
  have hnext := h.recalling.push parser chunk s
  rw [h.recalling.push_eq h.unfinished hp.more] at hnext ⊢
  simp only [he] at hnext ⊢
  exact ⟨hnext, h.supports, h.grammar, h.parsed, h.unfinished, hlive⟩

theorem upToDate_of_new {tokenizer : Tokenizer} {language : Language} {themeId : String}
    (h : Transform.new tokenizer language themeId true = .ok t) (hg : language.hasGrammar = true) :
    UpToDate t [] := by
  have hrecalling := recalling_of_new h
  obtain ⟨theme, hs, rfl⟩ := exists_of_new h
  refine ⟨hrecalling, hs, hg, hg, rfl, ?_⟩
  exact (congrArg Prod.fst (Tokenizer.segment_of_le (Nat.le_refl 0))).symm

theorem UpToDate.run {pushes : List (String × List RawCapture)} (h : UpToDate t old)
    (hp : FaithfulRun parser t old s pushes) :
    UpToDate (t.run parser (pushes.map fun p => .push p.1) s).2.1 (latest old pushes) := by
  induction pushes generalizing t old s with
  | nil => exact h
  | cons push rest ih =>
    obtain ⟨hpush, hrest⟩ := hp
    exact ih (h.push hpush) hrest

theorem FaithfulRun.of_prefix {done pushes : List (String × List RawCapture)}
    (h : FaithfulRun parser t old s pushes) (hd : done <+: pushes) :
    FaithfulRun parser t old s done := by
  induction done generalizing t old s pushes with
  | nil => trivial
  | cons push done ih =>
    obtain ⟨rest, rfl⟩ := hd
    obtain ⟨hpush, hrest⟩ := h
    exact ⟨hpush, ih hrest (List.prefix_append done rest)⟩

theorem pushed_map_push (pushes : List (String × List RawCapture)) :
    Call.pushed (pushes.map fun p => .push p.1) = String.join (pushes.map (·.1)) := by
  rw [← Call.pushed_map, List.map_map]
  rfl

-- With recalls and a faithful parser a consumer holds, after every push and also after the flush,
-- the tokens of the whole text parsed at once.
theorem incremental_eq_oneShot {tokenizer : Tokenizer} {language : Language} {themeId : String}
    {start : Transform} (hnew : Transform.new tokenizer language themeId true = .ok start)
    (hg : language.hasGrammar = true) (parser : SyntaxParser σ)
    (pushes : List (String × List RawCapture)) (s : σ)
    (hfaithful : FaithfulRun parser start [] s pushes) :
    ∀ done, done <+: pushes →
      let reached := start.run parser (done.map fun p => .push p.1) s
      let flushed := reached.2.1.flush parser reached.2.2
      let text := String.join (done.map (·.1))
      let whole := tokenizer.oneShot language text (latest [] done)
      reached.2.1.source = text ∧
      (TokenBuffer.empty.applyAll reached.1).tokens = reached.2.1.themed whole ∧
      (TokenBuffer.empty.applyAll (reached.1 ++ flushed.1)).tokens = flushed.2.1.themed whole := by
  intro done hd
  have h := (upToDate_of_new hnew hg).run (hfaithful.of_prefix hd)
  have hempty : TokenBuffer.empty.tokens = start.themed start.live := by
    obtain ⟨theme, -, rfl⟩ := exists_of_new hnew
    rfl
  have hview := (applyAll_run (recalling_of_new hnew) hempty parser
    (done.map fun p => .push p.1) s).1
  obtain ⟨hsource, -⟩ := run_of_new hnew parser (done.map fun p => .push p.1) s
  have hsetup := run_setup parser start (done.map fun p => .push p.1) s
  obtain ⟨theme, -, rfl⟩ := exists_of_new hnew
  rw [pushed_map_push] at hsource
  simp only [setup, Prod.mk.injEq] at hsetup
  have hlive := h.live
  rw [hsetup.1, hsetup.2.1, hsource] at hlive
  rw [hlive] at hview
  refine ⟨hsource, hview, ?_⟩
  rw [h.recalling.flush_eq h.unfinished, List.append_nil, hview]
  rfl

theorem incremental_eq_oneShot_rust :
    let pushes : List (String × List RawCapture) := [("fn ", [⟨0, 2, 0, "keyword"⟩]),
      ("a(", [⟨0, 2, 0, "keyword"⟩])]
    let answers : Recording := ⟨[.parsed [], .parsed [⟨3, 5⟩]],
      [[⟨0, 2, 0, "keyword"⟩], []], false⟩
    let reached := (bare .rust true).run Recording.player [.push "fn ", .push "a("] answers
    Transform.new (Tokenizer.bare .rust) .rust "bare" true = .ok (bare .rust true) ∧
      FaithfulRun Recording.player (bare .rust true) [] answers pushes ∧
      (TokenBuffer.empty.applyAll reached.1).tokens =
        reached.2.1.themed ((Tokenizer.bare .rust).oneShot .rust "fn a("
          [⟨0, 2, 0, "keyword"⟩]) := by
  intro pushes answers reached
  have hfaithful : FaithfulRun Recording.player (bare .rust true) [] answers pushes :=
    ⟨⟨by decide, ⟨_, _, rfl⟩, by decide +kernel, by decide +kernel⟩,
      ⟨by decide, ⟨_, _, rfl⟩, by decide +kernel, by decide +kernel⟩, trivial⟩
  exact ⟨new_bare .rust true, hfaithful, (incremental_eq_oneShot (new_bare .rust true) rfl
    Recording.player pushes answers hfaithful pushes (List.prefix_refl _)).2.1⟩

end SyntaxStream.Transform
