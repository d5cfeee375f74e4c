import SyntaxStream.Proofs.Transform.Emission

namespace SyntaxStream

-- What a caller can do with a transform.
inductive Call where
  | push (chunk : String)
  | flush
deriving Repr, DecidableEq

namespace Call

-- The text that is pushed before the first flush.
def pushed : List Call → String
  | [] => ""
  | push chunk :: rest => chunk ++ pushed rest
  | flush :: _ => ""

theorem pushed_map (chunks : List String) : pushed (chunks.map push) = String.join chunks := by
  induction chunks with
  | nil => rfl
  | cons chunk rest ih => rw [List.map_cons, pushed, ih, String.join_cons]

end Call

-- A theme without colors, and the language that goes with it.
def Theme.bare : Theme where
  id := "bare"
  name := "Bare"
  background := Color.opaqueOf 0 0 0
  foreground := Color.opaqueOf 255 255 255
  colors := Scope.names.map fun _ => none

def Tokenizer.bare (language : Language) : Tokenizer :=
  ⟨[language], [("bare", Theme.bare)]⟩

namespace Transform

open Text Segment

variable {σ : Type} {parser : SyntaxParser σ} {t : Transform} {chunk : String} {s : σ}

def step (parser : SyntaxParser σ) (t : Transform) (call : Call) (s : σ) :
    List Batch × Transform × σ :=
  match call with
  | .push chunk => t.push parser chunk s
  | .flush => t.flush parser s

def run (parser : SyntaxParser σ) : Transform → List Call → σ → List Batch × Transform × σ
  | t, [], s => ([], t, s)
  | t, call :: rest, s =>
    let (batches, t, s) := t.step parser call s
    let (more, t, s) := run parser t rest s
    (batches ++ more, t, s)

theorem run_cons (t : Transform) (call : Call) (rest : List Call) (s : σ) :
    t.run parser (call :: rest) s =
      let first := t.step parser call s
      let later := first.2.1.run parser rest first.2.2
      (first.1 ++ later.1, later.2) := rfl

theorem exists_of_new {tokenizer : Tokenizer} {language : Language} {themeId : String}
    {recalls : Bool} (h : Transform.new tokenizer language themeId recalls = .ok t) :
    ∃ theme, tokenizer.supports language = true ∧
      t = ⟨tokenizer, language, theme, recalls, language.hasGrammar, false, "", [], 0, false⟩ := by
  simp only [new, Tokenizer.parses] at h
  cases hth : tokenizer.theme themeId with
  | error reason => simp [hth, bind, Except.bind] at h
  | ok theme =>
    cases hs : tokenizer.supports language with
    | false => simp [hth, hs, bind, Except.bind] at h
    | true =>
      simp only [hth, hs, bind, Except.bind, if_true, pure, Except.pure, Except.ok.injEq] at h
      exact ⟨theme, rfl, h.symm⟩

theorem theme_of_new {tokenizer : Tokenizer} {language : Language} {themeId : String}
    {recalls : Bool} (h : new tokenizer language themeId recalls = .ok t) :
    tokenizer.theme themeId = .ok t.theme := by
  simp only [new] at h
  cases htheme : tokenizer.theme themeId with
  | error reason =>
    rw [htheme] at h
    cases h
  | ok theme =>
    cases hparses : tokenizer.parses language with
    | error reason =>
      rw [htheme, hparses] at h
      cases h
    | ok parsed =>
      rw [htheme, hparses] at h
      cases h
      rfl

def bare (language : Language) (allowRecalls : Bool) : Transform :=
  ⟨Tokenizer.bare language, language, Theme.bare, allowRecalls, language.hasGrammar, false, "", [],
    0, false⟩

theorem new_bare (language : Language) (allowRecalls : Bool) :
    Transform.new (Tokenizer.bare language) language "bare" allowRecalls =
      .ok (bare language allowRecalls) := by
  cases language <;> rfl

theorem reparse_of_plain (h : t.parsed = false) :
    t.reparse parser chunk s = (none, { t with source := t.source ++ chunk }, s) := by
  simp [reparse, h]

theorem reparse_of_failed {s' : σ} (h : t.parsed = true)
    (hp : parser.parse (t.source ++ chunk) s = (.failed, s')) :
    t.reparse parser chunk s =
      (some 0, { t with source := t.source ++ chunk, hasTree := false }, s') := by
  simp [reparse, h, hp]

theorem reparse_of_parsed {changed : List Window} {s' : σ} (h : t.parsed = true)
    (hp : parser.parse (t.source ++ chunk) s = (.parsed changed, s')) :
    t.reparse parser chunk s =
      (if t.hasTree then firstChange changed else none,
        { t with source := t.source ++ chunk, hasTree := true }, s') := by
  simp [reparse, h, hp]

-- The first byte whose structure a pushed chunk changes, the end of the text if there is none.
def earliestChange (parser : SyntaxParser σ) (t : Transform) (chunk : String) (s : σ) : Nat :=
  (t.reparse parser chunk s).1.getD (t.source ++ chunk).utf8ByteSize

-- Parsing appends the chunk; besides that it only settles whether there is a tree.
theorem exists_reparse_eq (parser : SyntaxParser σ) (t : Transform) (chunk : String) (s : σ) :
    ∃ hasTree, (t.reparse parser chunk s).2.1 = { t with source := t.source ++ chunk, hasTree } := by
  by_cases h : t.parsed = true
  · rcases hp : parser.parse (t.source ++ chunk) s with ⟨_ | changed, s'⟩
    · exact ⟨false, by rw [reparse_of_failed h hp]⟩
    · exact ⟨true, by rw [reparse_of_parsed h hp]⟩
  · exact ⟨t.hasTree, by rw [reparse_of_plain (by simpa using h)]⟩

theorem push_of_idle (h : t.finished = true ∨ chunk = "") : t.push parser chunk s = ([], t, s) := by
  rcases h with hf | rfl
  · simp [push, hf]
  · simp [push]

theorem idle_or_taken (t : Transform) (chunk : String) :
    (t.finished = true ∨ chunk = "") ∨ (t.finished = false ∧ chunk ≠ "") := by
  by_cases hc : chunk = ""
  · exact Or.inl (Or.inr hc)
  · cases hf : t.finished with
    | true => exact Or.inl (Or.inl rfl)
    | false => exact Or.inr ⟨rfl, hc⟩

theorem flush_of_finished (h : t.finished = true) : t.flush parser s = ([], t, s) := by
  simp [flush, h]

theorem push_of_recalls (hr : t.allowRecalls = true) (hf : t.finished = false) (hc : chunk ≠ "") :
    t.push parser chunk s =
      (t.reparse parser chunk s).2.1.emitWithRecalls parser (t.reparse parser chunk s).1 true
        (t.reparse parser chunk s).2.2 := by
  obtain ⟨hasTree, he⟩ := exists_reparse_eq parser t chunk s
  have hr' : (t.reparse parser chunk s).2.1.allowRecalls = true := by rw [he, hr]
  simp [push, hf, hc, hr']

theorem push_of_stable (hr : t.allowRecalls = false) (hf : t.finished = false) (hc : chunk ≠ "") :
    t.push parser chunk s =
      (t.reparse parser chunk s).2.1.emitStable parser (lineEnd (t.source ++ chunk))
        (t.reparse parser chunk s).2.2 := by
  obtain ⟨hasTree, he⟩ := exists_reparse_eq parser t chunk s
  have hr' : (t.reparse parser chunk s).2.1.allowRecalls = false := by rw [he, hr]
  have hs : (t.reparse parser chunk s).2.1.source = t.source ++ chunk := by rw [he]
  simp [push, hf, hc, hr', hs]

theorem flush_of_recalls (hr : t.allowRecalls = true) (hf : t.finished = false) :
    t.flush parser s = { t with finished := true }.emitWithRecalls parser none false s := by
  rw [flush, if_neg (by simp [hf]), if_pos hr]

theorem flush_of_stable (hr : t.allowRecalls = false) (hf : t.finished = false) :
    t.flush parser s =
      { t with finished := true }.emitStable parser t.source.utf8ByteSize s := by
  rw [flush, if_neg (by simp [hf]), if_neg (by simp [hr])]

theorem exists_emitStable_state (parser : SyntaxParser σ) (t : Transform) (stableEnd : Nat) (s : σ) :
    ∃ delivered, (t.emitStable parser stableEnd s).2.1 = { t with delivered } := by
  unfold emitStable
  split <;> exact ⟨_, rfl⟩

theorem exists_emitWithRecalls_state (parser : SyntaxParser σ) (t : Transform)
    (changedFrom : Option Nat) (provisional : Bool) (s : σ) :
    ∃ live delivered,
      (t.emitWithRecalls parser changedFrom provisional s).2.1 = { t with live, delivered } :=
  ⟨_, _, rfl⟩

-- A push takes up the chunk unless the input has ended. Besides, it changes no more than these.
theorem exists_push_state (parser : SyntaxParser σ) (t : Transform) (chunk : String) (s : σ) :
    ∃ hasTree live delivered, (t.push parser chunk s).2.1 =
      { t with
        source := if t.finished then t.source else t.source ++ chunk
        hasTree, live, delivered } := by
  obtain ⟨hasTree, he⟩ := exists_reparse_eq parser t chunk s
  rcases t.idle_or_taken chunk with hi | ⟨hf, hc⟩
  · have hs : (if t.finished then t.source else t.source ++ chunk) = t.source := by
      rcases hi with hf | rfl
      · rw [if_pos hf]
      · rw [String.append_empty, ite_self]
    rw [push_of_idle hi, hs]
    exact ⟨t.hasTree, t.live, t.delivered, rfl⟩
  · have hs : (if t.finished then t.source else t.source ++ chunk) = t.source ++ chunk := by
      rw [hf, if_neg Bool.false_ne_true]
    rw [hs]
    by_cases hr : t.allowRecalls = true
    · obtain ⟨live, delivered, hd⟩ := exists_emitWithRecalls_state parser
        (t.reparse parser chunk s).2.1 (t.reparse parser chunk s).1 true (t.reparse parser chunk s).2.2
      refine ⟨hasTree, live, delivered, ?_⟩
      rw [push_of_recalls hr hf hc, hd, he]
    · obtain ⟨delivered, hd⟩ := exists_emitStable_state parser (t.reparse parser chunk s).2.1
        (lineEnd (t.source ++ chunk)) (t.reparse parser chunk s).2.2
      refine ⟨hasTree, t.live, delivered, ?_⟩
      rw [push_of_stable (by simpa using hr) hf hc, hd, he]

theorem exists_flush_state (parser : SyntaxParser σ) (t : Transform) (s : σ) :
    ∃ live delivered, (t.flush parser s).2.1 = { t with finished := true, live, delivered } := by
  by_cases hf : t.finished = true
  · refine ⟨t.live, t.delivered, ?_⟩
    rw [flush_of_finished hf, ← hf]
  · have hf : t.finished = false := by simpa using hf
    by_cases hr : t.allowRecalls = true
    · rw [flush_of_recalls hr hf]
      exact exists_emitWithRecalls_state parser { t with finished := true } none false s
    · obtain ⟨delivered, hd⟩ :=
        exists_emitStable_state parser { t with finished := true } t.source.utf8ByteSize s
      refine ⟨t.live, delivered, ?_⟩
      rw [flush_of_stable (by simpa using hr) hf, hd]

-- No call changes anything but these.
theorem exists_step_state (parser : SyntaxParser σ) (t : Transform) (call : Call) (s : σ) :
    ∃ source hasTree live delivered finished, (t.step parser call s).2.1 =
      { t with source, hasTree, live, delivered, finished } := by
  cases call with
  | push chunk =>
    obtain ⟨hasTree, live, delivered, he⟩ := exists_push_state parser t chunk s
    exact ⟨_, hasTree, live, delivered, t.finished, he⟩
  | flush =>
    obtain ⟨live, delivered, he⟩ := exists_flush_state parser t s
    exact ⟨t.source, t.hasTree, live, delivered, true, he⟩

-- What holds before some calls and is kept by each of them holds after them.
theorem holds_of_run {P : Transform → Prop} (h : P t)
    (hstep : ∀ t, P t → ∀ call s, P (t.step parser call s).2.1) (calls : List Call) (s : σ) :
    P (t.run parser calls s).2.1 := by
  induction calls generalizing t s with
  | nil => exact h
  | cons call rest ih => exact ih (hstep t h call s) _

theorem run_source (parser : SyntaxParser σ) (t : Transform) (calls : List Call) (s : σ) :
    (t.run parser calls s).2.1.source =
      (if t.finished then t.source else t.source ++ Call.pushed calls) ∧
    ((t.run parser calls s).2.1.finished = true ↔ t.finished = true ∨ Call.flush ∈ calls) := by
  induction calls generalizing t s with
  | nil => cases hf : t.finished <;> simp [run, Call.pushed, hf]
  | cons call rest ih =>
    rw [run_cons]
    simp only
    obtain ⟨hs, hf⟩ := ih (t.step parser call s).2.1 (t.step parser call s).2.2
    rw [hs, hf]
    cases call with
    | push chunk =>
      obtain ⟨_, _, _, he⟩ := exists_push_state parser t chunk s
      simp only [step, he, Call.pushed, List.mem_cons, reduceCtorEq, false_or, and_true]
      cases t.finished <;> simp [String.append_assoc]
    | flush =>
      obtain ⟨_, _, he⟩ := exists_flush_state parser t s
      simp [step, he, Call.pushed]

def setup (t : Transform) : Tokenizer × Language × Theme :=
  (t.tokenizer, t.language, t.theme)

theorem run_setup (parser : SyntaxParser σ) (t : Transform) (calls : List Call) (s : σ) :
    (t.run parser calls s).2.1.setup = t.setup := by
  apply holds_of_run (P := fun reached => reached.setup = t.setup) rfl
  intro reached h call s
  obtain ⟨_, _, _, _, _, he⟩ := exists_step_state parser reached call s
  rw [he]
  exact h

theorem run_of_new {tokenizer : Tokenizer} {language : Language} {themeId : String}
    {recalls : Bool} {start : Transform}
    (h : Transform.new tokenizer language themeId recalls = .ok start) (parser : SyntaxParser σ)
    (calls : List Call) (s : σ) :
    (start.run parser calls s).2.1.source = Call.pushed calls ∧
      ((start.run parser calls s).2.1.finished = true ↔ Call.flush ∈ calls) := by
  obtain ⟨theme, -, rfl⟩ := exists_of_new h
  obtain ⟨hsource, hfinished⟩ := run_source parser
    ⟨tokenizer, language, theme, recalls, language.hasGrammar, false, "", [], 0, false⟩ calls s
  simp only [Bool.false_eq_true, if_false, false_or, String.empty_append] at hsource hfinished
  exact ⟨hsource, hfinished⟩

end Transform

end SyntaxStream
