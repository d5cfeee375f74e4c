import SyntaxStream.Proofs.Session.Run
import SyntaxStream.Proofs.Transform.Agreement
import SyntaxStream.Proofs.Transform.Retraction
import SyntaxStream.Proofs.Transform.Stable

namespace SyntaxStream

variable {σ τ ρ κ : Type} {R : σ → τ → Prop}

namespace SyntaxParser.Agree

variable [ChunkSource ρ] {p : SyntaxParser σ} {q : SyntaxParser τ} {s : σ} {u : τ}

theorem pushTransform (h : p.Agree q R) (hr : R s u) (session : Session) (chunk : String) :
    Alike (Alike R) (session.pushTransform p chunk s) (session.pushTransform q chunk u) := by
  simp only [Session.pushTransform]
  split
  · exact ⟨rfl, rfl, hr⟩
  · rename_i t _
    obtain ⟨hbatches, htransform, hnext⟩ := h.push hr t chunk
    exact ⟨congrArg some hbatches, by rw [htransform], hnext⟩

theorem feed (h : p.Agree q R) (hr : R s u) (session : Session) (chunk : String) :
    Alike (Alike R) (session.feed p chunk s) (session.feed q chunk u) := by
  simp only [Session.feed]
  split
  · obtain ⟨hbatches, hsession, hnext⟩ := h.pushTransform hr (session.append chunk) chunk
    exact ⟨by rw [hbatches], hsession, hnext⟩
  · exact ⟨rfl, rfl, hr⟩

theorem finish (h : p.Agree q R) (hr : R s u) (session : Session) :
    Alike (Alike R) (session.finish p s) (session.finish q u) := by
  simp only [Session.finish]
  split
  · split
    · exact ⟨rfl, rfl, hr⟩
    · rename_i t _
      obtain ⟨hbatches, htransform, hnext⟩ := h.flush hr t
      exact ⟨hbatches, by rw [htransform], hnext⟩
  · exact ⟨rfl, rfl, hr⟩

-- An operation on a session does the same with either parser.
theorem step (h : p.Agree q R) (hr : R s u) (session : Session) (library : ThemeLibrary)
    (operation : Operation ρ) :
    Alike (Alike R) (session.step p library operation s) (session.step q library operation u) := by
  cases operation with
  | start => exact ⟨rfl, rfl, hr⟩
  | append chunk => exact ⟨rfl, rfl, hr⟩
  | feed chunk =>
    obtain ⟨hbatches, hrest⟩ := h.feed hr session chunk
    exact ⟨congrArg Answer.batches hbatches, hrest⟩
  | push chunk =>
    obtain ⟨hbatches, hrest⟩ := h.pushTransform hr session chunk
    exact ⟨congrArg Answer.pushed hbatches, hrest⟩
  | finish =>
    obtain ⟨hbatches, hrest⟩ := h.finish hr session
    exact ⟨congrArg Answer.batches hbatches, hrest⟩
  | stop => exact ⟨rfl, rfl, hr⟩
  | process reader => exact ⟨rfl, rfl, hr⟩

theorem run (h : p.Agree q R) (hr : R s u) (session : Session)
    (operations : List (ThemeLibrary × Operation ρ)) :
    Alike (Alike R) (session.run p operations s) (session.run q operations u) := by
  induction operations generalizing session s u with
  | nil => exact ⟨rfl, rfl, hr⟩
  | cons entry rest ih =>
    obtain ⟨library, operation⟩ := entry
    obtain ⟨hanswer, hsession, hnext⟩ := h.step hr session library operation
    rw [Session.run_cons, Session.run_cons]
    simp only [hanswer, hsession]
    obtain ⟨hrecords, hlast⟩ := ih hnext (session.step q library operation u).2.1
    exact ⟨by rw [hrecords], hlast⟩

end SyntaxParser.Agree

-- The chunk that an operation hands to the transform.
def Operation.handed? : Operation ρ → Option String
  | feed chunk | push chunk => some chunk
  | _ => none

namespace Transform

variable {parser : SyntaxParser σ} {t : Transform} {s : σ}

-- A transform that has not been given any text.
structure Untouched (t : Transform) : Prop where
  source : t.source = ""
  recalling : t.allowRecalls = true → Recalling t

theorem untouched_of_new {tokenizer : Tokenizer} {language : Language} {themeId : String}
    {recalls : Bool} (h : Transform.new tokenizer language themeId recalls = .ok t) :
    Untouched t := by
  obtain ⟨theme, -, ht⟩ := exists_of_new h
  refine ⟨by rw [ht], fun hr => ?_⟩
  obtain rfl : recalls = true := by rwa [ht] at hr
  exact recalling_of_new h

theorem unfinished_of_new {tokenizer : Tokenizer} {language : Language} {themeId : String}
    {recalls : Bool} (h : Transform.new tokenizer language themeId recalls = .ok t) :
    t.finished = false := by
  obtain ⟨theme, -, rfl⟩ := exists_of_new h
  rfl

theorem Untouched.push_empty (h : Untouched t) (parser : SyntaxParser σ) (s : σ) :
    Untouched (t.push parser "" s).2.1 := by
  rwa [push_of_idle (Or.inr rfl)]

theorem Untouched.flush (h : Untouched t) (parser : SyntaxParser σ) (s : σ) :
    Untouched (t.flush parser s).2.1 := by
  obtain ⟨live, delivered, he⟩ := exists_flush_state parser t s
  refine ⟨by rw [he, h.source], fun hr => ?_⟩
  rw [he] at hr
  exact (h.recalling hr).flush parser s

theorem retract_notMem_emitStable (parser : SyntaxParser σ) (t : Transform) (stableEnd : Nat)
    (s : σ) (n : Nat) : .retract n ∉ (t.emitStable parser stableEnd s).1 := by
  unfold emitStable
  split
  · exact List.not_mem_nil
  · dsimp only
    split <;> simp

-- The first chunk takes nothing back.
theorem Untouched.retract_notMem (h : Untouched t) (parser : SyntaxParser σ) (chunk : String)
    (s : σ) (n : Nat) : .retract n ∉ (t.push parser chunk s).1 := by
  rcases t.idle_or_taken chunk with hi | ⟨hf, hc⟩
  · rw [push_of_idle hi]
    exact List.not_mem_nil
  · cases ha : t.allowRecalls with
    | true =>
      rw [(h.recalling ha).push_of_nil hf hc ((h.recalling ha).live_eq_nil_iff.mpr h.source)]
      simp
    | false =>
      rw [push_of_stable ha hf hc]
      exact retract_notMem_emitStable _ _ _ _ n

end Transform

namespace Session

open ChunkSource

variable {parser : SyntaxParser σ} {library : ThemeLibrary} {options : SessionOptions}
  {session : Session} {seen : ThemeLibrary → Prop} {P : Transform → Prop} {t : Transform}
  {chunk : String} {s : σ}

-- An operation that keeps a property of a transform, whatever it does to it.
structure Keeps (parser : SyntaxParser σ) (operation : Operation ρ) (P : Transform → Prop) :
    Prop where
  push : ∀ chunk, operation.handed? = some chunk → ∀ t s, P t → P (t.push parser chunk s).2.1
  flush : operation = .finish → ∀ t s, P t → P (t.flush parser s).2.1

-- Operations that hand no text to the transform leave it untouched.
theorem keeps_untouched {operation : Operation ρ} (h : operation.handed?.getD "" = "") :
    Keeps parser operation Transform.Untouched where
  push chunk hc t s ht := by
    rw [hc] at h
    obtain rfl : chunk = "" := h
    exact ht.push_empty parser s
  flush _ t s ht := ht.flush parser s

theorem keeps_unfinished {operation : Operation ρ} (h : operation ≠ .finish) :
    Keeps parser operation (·.finished = false) where
  push chunk _ t s ht := by
    obtain ⟨_, _, _, he⟩ := Transform.exists_push_state parser t chunk s
    rwa [he]
  flush hf := absurd hf h

variable [ChunkSource ρ] [ChunkSource κ]

theorem transform_append (session : Session) (chunk : String) :
    (session.append chunk).transform = session.transform := by
  unfold append
  split <;> rfl

theorem pushTransform_keeps (hpush : ∀ t s, P t → P (t.push parser chunk s).2.1)
    (hp : ∀ t ∈ session.transform, P t) :
    ∀ t ∈ (session.pushTransform parser chunk s).2.1.transform, P t := by
  unfold pushTransform
  split
  · exact hp
  · rename_i t ht
    rintro _ ⟨⟩
    exact hpush t s (hp t ht)

-- What holds of every new transform and is kept by an operation still holds of the transform there
-- is after the operation.
theorem Sound.step_keeps (h : Sound options seen session) (hl : seen library)
    {operation : Operation ρ} (hk : Keeps parser operation P)
    (hnew : ∀ {tokenizer language t},
      Transform.new tokenizer language options.themeId options.allowRecalls = .ok t → P t)
    (hp : ∀ t ∈ session.transform, P t) (s : σ) :
    ∀ t ∈ (session.step parser library operation s).2.1.transform, P t := by
  cases operation with
  | start =>
    simp only [Session.step]
    rcases h.start_cases library hl with ⟨_, hs⟩ | ⟨_, _, t, hs, -, hn⟩
    · rwa [hs]
    · rw [hs]
      rintro _ ⟨⟩
      exact hnew hn
  | append chunk => rwa [Session.step, transform_append]
  | feed chunk =>
    simp only [Session.step, h.feed_eq]
    exact pushTransform_keeps (hk.push chunk rfl) (by rwa [transform_append])
  | push chunk => exact pushTransform_keeps (hk.push chunk rfl) hp
  | finish =>
    simp only [Session.step]
    rcases h.idle_or_streams with hi | ⟨t, ht⟩
    · rwa [hi.finish]
    · rw [ht.finish]
      rintro _ ⟨⟩
      exact hk.flush rfl t s (hp t ht.transform)
  | stop => exact fun t ht => absurd ht session.idle_stop.transform_ne
  | process reader =>
    simp only [Session.step]
    rcases h.process_cases library hl reader with ⟨_, -, hr⟩ | ⟨_, _, _, -, hr, -, -⟩
    · rwa [hr]
    · rw [hr]
      exact fun t ht => absurd ht (idle_stop _).transform_ne

theorem Sound.run_keeps (h : Sound options seen session)
    {operations : List (ThemeLibrary × Operation ρ)} (hl : ∀ entry ∈ operations, seen entry.1)
    (hk : ∀ entry ∈ operations, Keeps parser entry.2 P)
    (hnew : ∀ {tokenizer language t},
      Transform.new tokenizer language options.themeId options.allowRecalls = .ok t → P t)
    (hp : ∀ t ∈ session.transform, P t) (s : σ) :
    ∀ t ∈ (session.run parser operations s).2.1.transform, P t := by
  induction operations generalizing session s with
  | nil => exact hp
  | cons entry rest ih =>
    obtain ⟨hseen, hlater⟩ := List.forall_mem_cons.mp hl
    obtain ⟨hkept, hrest⟩ := List.forall_mem_cons.mp hk
    exact ih (h.step hseen entry.2 s) hlater hrest (h.step_keeps hseen hkept hnew hp s) _

theorem Streams.step_of_handed (h : session.Streams t) {operation : Operation ρ}
    (hc : operation.handed? = some chunk) :
    (session.step parser library operation s).1.emitted = (t.push parser chunk s).1 ∧
      (session.step parser library operation s).2.1.transform =
        some (t.push parser chunk s).2.1 := by
  cases operation with
  | feed fed =>
    obtain rfl : fed = chunk := Option.some.inj hc
    simp only [Session.step, h.feed, Answer.emitted, and_self]
  | push pushed =>
    obtain rfl : pushed = chunk := Option.some.inj hc
    simp only [Session.step, h.pushTransform, Answer.emitted, Option.getD_some, and_self]
  | _ => cases hc

theorem Sound.streams_of_transform (h : Sound options seen session)
    (ht : session.transform = some t) : session.Streams t := by
  rcases h.idle_or_streams with hi | ⟨t', ht'⟩
  · exact absurd ht hi.transform_ne
  · obtain rfl := Option.some.inj (ht'.transform.symm.trans ht)
    exact ht'

-- As long as no text has been handed to a new transform, whatever comes takes nothing back.
theorem Sound.retract_notMem (h : Sound options seen session)
    (hp : ∀ t ∈ session.transform, t.Untouched) {quiet : List (ThemeLibrary × Operation ρ)}
    (hl : ∀ entry ∈ quiet, seen entry.1)
    (hquiet : ∀ entry ∈ quiet, entry.2.handed?.getD "" = "") (s : σ) {operation : Operation ρ}
    (hc : operation.handed? = some chunk) (n : Nat) :
    let reached := (session.run parser quiet s).2
    .retract n ∉ (reached.1.step parser library operation reached.2).1.emitted := by
  intro reached
  have hreached : Sound options seen reached.1 := h.run hl s
  have huntouched : ∀ t ∈ reached.1.transform, t.Untouched :=
    h.run_keeps hl (fun entry hm => keeps_untouched (hquiet entry hm)) Transform.untouched_of_new
      hp s
  rcases hreached.idle_or_streams with hi | ⟨t, ht⟩
  · have hopens : operation.opens = false := by
      cases operation with
      | start => cases hc
      | process reader => cases hc
      | _ => rfl
    rw [(hi.step hopens).2]
    exact List.not_mem_nil
  · rw [(ht.step_of_handed hc).1]
    exact (huntouched t ht.transform).retract_notMem parser chunk reached.2 n

-- As long as the input has not ended, a transform takes up what it is handed.
theorem Sound.takes_up (h : Sound options seen session)
    (hp : ∀ t ∈ session.transform, t.finished = false)
    {later : List (ThemeLibrary × Operation ρ)} (hl : ∀ entry ∈ later, seen entry.1)
    (hlater : ∀ entry ∈ later, entry.2 ≠ .finish) (s : σ) {operation : Operation ρ}
    (hc : operation.handed? = some chunk) :
    let reached := (session.run parser later s).2
    ∀ t ∈ reached.1.transform, ∃ t',
      (reached.1.step parser library operation reached.2).2.1.transform = some t' ∧
        t'.source = t.source ++ chunk := by
  intro reached t ht
  have hreached : Sound options seen reached.1 := h.run hl s
  have hf : t.finished = false :=
    h.run_keeps hl (fun entry hm => keeps_unfinished (hlater entry hm))
      Transform.unfinished_of_new hp s t ht
  refine ⟨_, ((hreached.streams_of_transform ht).step_of_handed hc).2, ?_⟩
  obtain ⟨_, _, _, he⟩ := Transform.exists_push_state parser t chunk reached.2
  rw [he]
  simp only [hf, Bool.false_eq_true, if_false]

-- A session that is started again is as one that is started for the first time, whatever happened
-- before.
theorem restart_forgets_history (options : SessionOptions) (library : ThemeLibrary)
    {p : SyntaxParser σ} {q : SyntaxParser τ} (hagree : p.Agree q R)
    (earlier : List (Operation κ)) (s : σ) (u : τ) :
    let past := ((Session.new options).run p (earlier.map (library, ·)) s).2
    let restarted := past.1.start library
    let fresh := (Session.new options).start library
    R past.2 u → restarted.1 = .ok () →
    fresh.1 = .ok () ∧ restarted.2.streaming = true ∧
    (∀ later : List (ThemeLibrary × Operation ρ),
      (restarted.2.run p later past.2).1 = (fresh.2.run q later u).1) ∧
    (∀ quiet : List (ThemeLibrary × Operation ρ),
      (∀ entry ∈ quiet, entry.2.handed?.getD "" = "") →
      let reached := (restarted.2.run p quiet past.2).2
      ∀ (operation : Operation ρ) chunk, operation.handed? = some chunk → ∀ library n,
        .retract n ∉ (reached.1.step p library operation reached.2).1.emitted) ∧
    ∀ later : List (ThemeLibrary × Operation ρ), (∀ entry ∈ later, entry.2 ≠ .finish) →
      let reached := (restarted.2.run p later past.2).2
      ∀ (operation : Operation ρ) chunk, operation.handed? = some chunk → ∀ library,
      ∀ t ∈ reached.1.transform, ∃ t',
        (reached.1.step p library operation reached.2).2.1.transform = some t' ∧
          t'.source = t.source ++ chunk := by
  intro past restarted fresh hr hok
  have hkept : Sound options (· = library) past.1 := (sound_new options _).run (by simp) s
  obtain ⟨hresult, hsame⟩ := hkept.faithful.start_eq_start_new
  rw [hkept.options_eq] at hresult hsame
  have hfresh : restarted = fresh := hsame hok
  have hpast : Sound options (fun _ => True) past.1 :=
    (sound_new options _).run (fun _ _ => trivial) s
  rcases hpast.start_cases library trivial with
    ⟨_, hs⟩ | ⟨tokenizer, language, t, hs, hopened, hn⟩
  · cases hok.symm.trans (congrArg Prod.fst hs)
  have hstart : restarted.2 = opened options tokenizer t := congrArg Prod.snd hs
  refine ⟨hresult.symm.trans hok, congrArg Session.streaming hstart, fun later => ?_,
    fun quiet hquiet operation chunk hc library n => ?_,
    fun later hlater operation chunk hc library => ?_⟩
  · rw [hfresh]
    exact (hagree.run hr fresh.2 later).1
  · rw [hstart]
    refine hopened.retract_notMem ?_ (fun _ _ => trivial) hquiet past.2 hc n
    rintro _ ⟨⟩
    exact Transform.untouched_of_new hn
  · rw [hstart]
    refine hopened.takes_up ?_ (fun _ _ => trivial) hlater past.2 hc
    rintro _ ⟨⟩
    exact Transform.unfinished_of_new hn

-- A session that was finished and then left, and the first chunk of the next one.
theorem restart_forgets_history_rust :
    let options : SessionOptions := ⟨some "rust", some "default-dark", true⟩
    let earlier : List (Operation ChunkReader) := [.start, .feed "fn", .finish, .feed "x"]
    let answers : Recording := ⟨[.parsed [], .parsed []],
      [[⟨0, 2, 0, "keyword"⟩], [⟨0, 3, 0, "keyword"⟩]], false⟩
    let left : Recording := ⟨[.parsed []], [[⟨0, 3, 0, "keyword"⟩]], true⟩
    let past := ((Session.new options).run Recording.player (earlier.map (.bare, ·)) answers).2
    let restarted := past.1.start .bare
    let fresh := (Session.new options).start .bare
    let later : List (ThemeLibrary × Operation ChunkReader) :=
      [(.bare, .feed "let"), (.bare, .finish)]
    Recording.SameLeft past.2 left ∧ restarted.1 = .ok () ∧
      (restarted.2.run Recording.player later past.2).1 =
        (fresh.2.run Recording.player later left).1 := by
  intro options earlier answers left past restarted fresh later
  -- evaluated at once, as each evaluation loads the theme again
  have hall : (past.2.parses = left.parses ∧ past.2.queries = left.queries) ∧
      restarted.1 = .ok () := by decide +kernel
  obtain ⟨hleft, hok⟩ : Recording.SameLeft past.2 left ∧ restarted.1 = .ok () := hall
  have hsame := (restart_forgets_history options .bare Recording.agree_player earlier answers left
    hleft hok).2.2.1 later
  exact ⟨hleft, hok, hsame⟩

end Session

end SyntaxStream
