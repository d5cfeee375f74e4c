import SyntaxStream.BatchStream
import SyntaxStream.Proofs.Transform.Run

namespace SyntaxStream

namespace ChunkIterator

variable {ι : Type} [ChunkIterator ι] {source rest : ι} {chunk : String} {k : Nat}

-- The chunks that come from a source before it answers for the first time that there are no more.
def toList (source : ι) : List String :=
  match _h : next source with
  | (some chunk, rest) => chunk :: toList rest
  | (none, _) => []
termination_by left source
decreasing_by exact left_next_lt _h

-- What a number of requests leave of a source.
def asked : Nat → ι → ι
  | 0, source => source
  | k + 1, source => asked k (next source).2

theorem asked_succ (k : Nat) (source : ι) : asked (k + 1) source = (next (asked k source)).2 := by
  induction k generalizing source with
  | zero => rfl
  | succ k ih => exact ih (next source).2

theorem toList_of_some (h : next source = (some chunk, rest)) :
    toList source = chunk :: toList rest := by
  rw [toList]
  split
  · rename_i hnext
    obtain ⟨⟨⟩, rfl⟩ := Prod.mk.inj (hnext.symm.trans h)
    rfl
  · rename_i hnext
    cases hnext.symm.trans h

theorem toList_of_none (h : next source = (none, rest)) : toList source = [] := by
  rw [toList]
  split
  · rename_i hnext
    cases hnext.symm.trans h
  · rfl

-- Up to the end each request is answered with the next chunk.
theorem next_asked (h : k ≤ (toList source).length) :
    (next (asked k source)).1 = (toList source)[k]? := by
  induction k generalizing source with
  | zero =>
    rcases hnext : next source with ⟨_ | chunk, rest⟩
    · rw [asked, hnext, toList_of_none hnext, List.getElem?_nil]
    · rw [asked, hnext, toList_of_some hnext, List.getElem?_cons_zero]
  | succ k ih =>
    rcases hnext : next source with ⟨_ | chunk, rest⟩
    · rw [toList_of_none hnext] at h
      exact absurd h (Nat.not_succ_le_zero k)
    · rw [toList_of_some hnext] at h ⊢
      rw [asked, hnext, List.getElem?_cons_succ]
      exact ih (Nat.le_of_succ_le_succ h)

-- A list gives its elements, and each request for one takes it away.
theorem toList_list (chunks : List String) : toList chunks = chunks := by
  induction chunks with
  | nil => exact toList_of_none rfl
  | cons chunk rest ih => rw [toList_of_some rfl, ih]

theorem asked_list (k : Nat) (chunks : List String) : asked k chunks = chunks.drop k := by
  induction k generalizing chunks with
  | zero => rfl
  | succ k ih =>
    cases chunks with
    | nil => exact (ih []).trans List.drop_nil
    | cons chunk rest => exact ih rest

end ChunkIterator

variable {σ ι : Type} {parser : SyntaxParser σ}

theorem Transform.run_append (t : Transform) (calls more : List Call) (s : σ) :
    t.run parser (calls ++ more) s =
      let first := t.run parser calls s
      let later := first.2.1.run parser more first.2.2
      (first.1 ++ later.1, later.2) := by
  induction calls generalizing t s with
  | nil => rfl
  | cons call rest ih => simp only [List.cons_append, run_cons, ih, List.append_assoc]

namespace BatchStream

open ChunkIterator

variable [ChunkIterator ι] {t : Transform} {source : ι} {s s' : σ} {stream : BatchStream ι}
  {k n : Nat}

-- What a number of calls in a row answer, and what they leave.
def nextTimes (parser : SyntaxParser σ) (stream : BatchStream ι) (s : σ) :
    Nat → List (Option Batch) × BatchStream ι × σ
  | 0 => ([], stream, s)
  | n + 1 =>
    let (answers, stream, s) := nextTimes parser stream s n
    let (answer, stream, s) := stream.next parser s
    (answers ++ [answer], stream, s)

theorem nextTimes_succ (parser : SyntaxParser σ) (stream : BatchStream ι) (s : σ) (n : Nat) :
    stream.nextTimes parser s (n + 1) =
      let before := stream.nextTimes parser s n
      let last := before.2.1.next parser before.2.2
      (before.1 ++ [last.1], last.2) := rfl

-- The calls that give all batches of a source: one for each answer to a request.
def eagerCalls (source : ι) : List Call := (toList source).map .push ++ [.flush]

-- What the calls for the first answers come to.
def made (parser : SyntaxParser σ) (t : Transform) (source : ι) (s : σ) (k : Nat) :
    List Batch × Transform × σ :=
  t.run parser ((eagerCalls source).take k) s

theorem length_eagerCalls (source : ι) :
    (eagerCalls source).length = (toList source).length + 1 := by
  simp [eagerCalls]

-- A stream that has asked k times and given n batches: all other batches of the calls for these
-- answers are waiting.
structure Reached (parser : SyntaxParser σ) (t : Transform) (source : ι) (s : σ) (k n : Nat)
    (stream : BatchStream ι) (s' : σ) : Prop where
  asked_le : k ≤ (eagerCalls source).length
  given_le : n ≤ (made parser t source s k).1.length
  state : (stream.transform, s') = (made parser t source s k).2
  chunks : stream.chunks = asked k source
  pending : stream.pending = (made parser t source s k).1.drop n
  exhausted : stream.exhausted = true ↔ k = (eagerCalls source).length

theorem made_succ (parser : SyntaxParser σ) (t : Transform) (s : σ) {call : Call}
    (hc : (eagerCalls source)[k]? = some call) :
    made parser t source s (k + 1) =
      ((made parser t source s k).1 ++
        ((made parser t source s k).2.1.step parser call (made parser t source s k).2.2).1,
      ((made parser t source s k).2.1.step parser call (made parser t source s k).2.2).2) := by
  rw [made, List.take_add_one, hc, Transform.run_append]
  simp only [Option.toList_some, Transform.run, List.append_nil]
  rfl

theorem made_mono (parser : SyntaxParser σ) (t : Transform) (source : ι) (s : σ) {j : Nat}
    (h : j ≤ k) : (made parser t source s j).1 <+: (made parser t source s k).1 := by
  have hsplit := List.take_append_drop j ((eagerCalls source).take k)
  rw [List.take_take, Nat.min_eq_left h] at hsplit
  rw [made, made, ← hsplit, Transform.run_append]
  exact List.prefix_append _ _

theorem eagerCalls_getElem? (h : k ≤ (toList source).length) :
    (eagerCalls source)[k]? = some (((toList source)[k]?.map Call.push).getD .flush) := by
  rcases Nat.eq_or_lt_of_le h with rfl | hlt
  · simp [eagerCalls]
  · simp [eagerCalls, List.getElem?_append_left, hlt]

theorem reached_ofChunks (parser : SyntaxParser σ) (t : Transform) (source : ι) (s : σ) :
    Reached parser t source s 0 0 (ofChunks t source) s := by
  refine ⟨Nat.zero_le _, Nat.zero_le _, rfl, rfl, rfl, ?_⟩
  rw [length_eagerCalls]
  simp [ofChunks]

theorem next_of_pending {batch : Batch} {pending : List Batch}
    (h : stream.pending = batch :: pending) :
    stream.next parser s = (some batch, { stream with pending }, s) := by
  rw [next, h]

theorem next_of_exhausted (hp : stream.pending = []) (he : stream.exhausted = true) :
    stream.next parser s = (none, stream, s) := by
  rw [next, hp]
  simp only [he, dif_pos]

theorem next_of_chunk {chunk : String} {rest : ι} (hp : stream.pending = [])
    (he : stream.exhausted = false) (h : ChunkIterator.next stream.chunks = (some chunk, rest)) :
    stream.next parser s =
      let first := stream.transform.push parser chunk s
      next parser ⟨first.2.1, rest, first.1, false⟩ first.2.2 := by
  rw [next, hp]
  simp only [he, Bool.false_eq_true, dif_neg, not_false_eq_true]
  split
  · rename_i hnext
    obtain ⟨⟨⟩, rfl⟩ := Prod.mk.inj (hnext.symm.trans h)
    rfl
  · rename_i hnext
    cases hnext.symm.trans h

theorem next_of_end {rest : ι} (hp : stream.pending = []) (he : stream.exhausted = false)
    (h : ChunkIterator.next stream.chunks = (none, rest)) :
    stream.next parser s =
      let last := stream.transform.flush parser s
      next parser ⟨last.2.1, rest, last.1, true⟩ last.2.2 := by
  rw [next, hp]
  simp only [he, Bool.false_eq_true, dif_neg, not_false_eq_true]
  split
  · rename_i hnext
    cases hnext.symm.trans h
  · rename_i hnext
    obtain ⟨-, rfl⟩ := Prod.mk.inj (hnext.symm.trans h)
    rfl

-- A call with nothing waiting appends its batches to those that have been given.
theorem Reached.ask (h : Reached parser t source s k n stream s') (hp : stream.pending = [])
    (hk : k ≤ (toList source).length) {later : BatchStream ι} {s'' : σ}
    (hmade : made parser t source s (k + 1) =
      ((made parser t source s k).1 ++ later.pending, later.transform, s''))
    (hchunks : later.chunks = (ChunkIterator.next stream.chunks).2)
    (hend : later.exhausted = true ↔ k = (toList source).length) :
    Reached parser t source s (k + 1) n later s'' := by
  have hn : n = (made parser t source s k).1.length :=
    Nat.le_antisymm h.given_le (List.drop_eq_nil_iff.mp (h.pending.symm.trans hp))
  refine ⟨?_, ?_, ?_, ?_, ?_, ?_⟩
  · rw [length_eagerCalls]
    exact Nat.succ_le_succ hk
  · rw [hmade, hn, List.length_append]
    exact Nat.le_add_right _ _
  · rw [hmade]
  · rw [hchunks, h.chunks, asked_succ]
  · rw [hmade, hn, List.drop_left]
  · rw [hend, length_eagerCalls, Nat.add_right_cancel_iff]

-- With nothing waiting, one turn of the loop makes the call for the next answer of the source.
theorem Reached.turn (h : Reached parser t source s k n stream s') (hp : stream.pending = [])
    (he : stream.exhausted = false) :
    ∃ later s'', stream.next parser s' = later.next parser s'' ∧
      Reached parser t source s (k + 1) n later s'' := by
  have hk : k ≤ (toList source).length := by
    have hle := h.asked_le
    have hopen := mt h.exhausted.mpr (by rw [he]; exact Bool.false_ne_true)
    rw [length_eagerCalls] at hle hopen
    omega
  obtain ⟨htransform, hstate⟩ := Prod.mk.inj h.state
  have hanswer := next_asked hk
  have hmade := made_succ parser t s (eagerCalls_getElem? hk)
  rw [← hanswer, ← h.chunks, ← htransform, ← hstate] at hmade
  rw [← h.chunks] at hanswer
  rcases hnext : ChunkIterator.next stream.chunks with ⟨_ | chunk, rest⟩
  · rw [hnext] at hmade hanswer
    have hlast := List.getElem?_eq_none_iff.mp hanswer.symm
    refine ⟨_, _, next_of_end hp he hnext, h.ask hp hk hmade (by rw [hnext]) ?_⟩
    exact ⟨fun _ => Nat.le_antisymm hk hlast, fun _ => rfl⟩
  · rw [hnext] at hmade hanswer
    have hlt := (List.getElem?_eq_some_iff.mp hanswer.symm).1
    refine ⟨_, _, next_of_chunk hp he hnext, h.ask hp hk hmade (by rw [hnext]) ?_⟩
    exact ⟨fun hend => absurd hend Bool.false_ne_true, fun hk => absurd hk (Nat.ne_of_lt hlt)⟩

-- The loop turns until a batch is waiting or the source has ended.
theorem Reached.exists_settled (h : Reached parser t source s k n stream s') :
    ∃ later settled s'', k ≤ later ∧
      (∀ j, k ≤ j → j < later → (made parser t source s j).1.length ≤ n) ∧
      stream.next parser s' = settled.next parser s'' ∧
      Reached parser t source s later n settled s'' ∧
      (settled.pending ≠ [] ∨ settled.exhausted = true) := by
  induction hd : (eagerCalls source).length - k generalizing k stream s' with
  | zero =>
    have hk := Nat.le_antisymm h.asked_le (Nat.le_of_sub_eq_zero hd)
    refine ⟨k, stream, s', Nat.le_refl k, fun j hj hlt => ?_, rfl, h, Or.inr (h.exhausted.mpr hk)⟩
    exact absurd hj (Nat.not_le_of_lt hlt)
  | succ d ih =>
    by_cases hp : stream.pending = []
    · have he : stream.exhausted = false := by
        rw [← Bool.not_eq_true, h.exhausted]
        omega
      obtain ⟨turned, s'', heq, hturned⟩ := h.turn hp he
      obtain ⟨later, settled, s₃, hle, hbefore, heq', hsettled, hready⟩ := ih hturned (by omega)
      refine ⟨later, settled, s₃, Nat.le_of_succ_le hle, fun j hj hlt => ?_, heq.trans heq',
        hsettled, hready⟩
      rcases Nat.eq_or_lt_of_le hj with rfl | hj
      · exact List.drop_eq_nil_iff.mp (h.pending.symm.trans hp)
      · exact hbefore j hj hlt
    · refine ⟨k, stream, s', Nat.le_refl k, fun j hj hlt => ?_, rfl, h, Or.inl hp⟩
      exact absurd hj (Nat.not_le_of_lt hlt)

theorem Reached.give (h : Reached parser t source s k n stream s') {batch : Batch}
    {pending : List Batch} (hp : stream.pending = batch :: pending) :
    (made parser t source s k).1[n]? = some batch ∧
      Reached parser t source s k (n + 1) { stream with pending } s' := by
  have hdrop := h.pending.symm.trans hp
  have hbatch : (made parser t source s k).1[n]? = some batch := by
    rw [← Nat.add_zero n, ← List.getElem?_drop, hdrop, List.getElem?_cons_zero]
  have hn := (List.getElem?_eq_some_iff.mp hbatch).1
  refine ⟨hbatch, h.asked_le, hn, h.state, h.chunks, ?_, h.exhausted⟩
  rw [← List.tail_drop, hdrop, List.tail_cons]

theorem made_all (parser : SyntaxParser σ) (t : Transform) (source : ι) (s : σ) :
    made parser t source s (eagerCalls source).length = t.run parser (eagerCalls source) s := by
  rw [made, List.take_length]

theorem made_le_eager (parser : SyntaxParser σ) (t : Transform) (source : ι) (s : σ)
    (k : Nat) : (made parser t source s k).1 <+: (t.run parser (eagerCalls source) s).1 := by
  conv_rhs => rw [← List.take_append_drop k (eagerCalls source), Transform.run_append]
  exact List.prefix_append _ _

-- As long as not all batches have been given, the next one is. The source is asked no further than
-- the call that makes it needs.
theorem Reached.next_of_lt (h : Reached parser t source s k n stream s')
    (hn : n < (t.run parser (eagerCalls source) s).1.length) :
    ∃ later, (∀ j, k ≤ j → j < later → (made parser t source s j).1.length ≤ n) ∧
      (stream.next parser s').1 = (t.run parser (eagerCalls source) s).1[n]? ∧
      Reached parser t source s later (n + 1) (stream.next parser s').2.1
        (stream.next parser s').2.2 := by
  obtain ⟨later, settled, s'', -, hbefore, heq, hs, hready⟩ := h.exists_settled
  have hne : settled.pending ≠ [] := by
    refine hready.elim id fun he hp => ?_
    rw [hs.pending, hs.exhausted.mp he, made_all, List.drop_eq_nil_iff] at hp
    omega
  obtain ⟨batch, pending, hp⟩ := List.exists_cons_of_ne_nil hne
  obtain ⟨hbatch, hgiven⟩ := hs.give hp
  obtain ⟨hlt, rfl⟩ := List.getElem?_eq_some_iff.mp hbatch
  have hall := made_le_eager parser t source s later
  refine ⟨later, hbefore, ?_, ?_⟩
  · rw [heq, next_of_pending hp, List.prefix_iff_getElem?.mp hall n hlt]
  · rw [heq, next_of_pending hp]
    exact hgiven

-- Once all batches have been given there is nothing left to do but to see the end of the source.
theorem Reached.next_of_all (h : Reached parser t source s k n stream s')
    (hn : (t.run parser (eagerCalls source) s).1.length = n) :
    (stream.next parser s').1 = none ∧
      Reached parser t source s (eagerCalls source).length n (stream.next parser s').2.1
        (stream.next parser s').2.2 := by
  obtain ⟨later, settled, s'', -, -, heq, hs, hready⟩ := h.exists_settled
  have hp : settled.pending = [] := by
    rw [hs.pending, List.drop_eq_nil_iff, ← hn]
    exact (made_le_eager parser t source s later).length_le
  have he := hready.resolve_left fun hne => hne hp
  rw [heq, next_of_exhausted hp he, ← hs.exhausted.mp he]
  exact ⟨rfl, hs⟩

-- Calls in a row give the batches in their order. The last request was made for the last batch.
theorem exists_reached_nextTimes (parser : SyntaxParser σ) (t : Transform) (source : ι) (s : σ)
    (hn : n ≤ (t.run parser (eagerCalls source) s).1.length) :
    let after := (ofChunks t source).nextTimes parser s n
    after.1 = ((t.run parser (eagerCalls source) s).1.map some).take n ∧
      ∃ k, (∀ j, j < k → (made parser t source s j).1.length < n) ∧
        Reached parser t source s k n after.2.1 after.2.2 := by
  intro after
  induction n with
  | zero => exact ⟨rfl, 0, fun j hj => absurd hj (Nat.not_lt_zero j), reached_ofChunks ..⟩
  | succ n ih =>
    obtain ⟨hanswers, k, hbefore, hreached⟩ := ih (Nat.le_of_succ_le hn)
    obtain ⟨later, hasked, hanswer, hnext⟩ := hreached.next_of_lt hn
    refine ⟨?_, later, fun j hj => ?_, hnext⟩
    · have hsplit : after.1 = _ ++ [_] := rfl
      rw [hsplit, hanswers, hanswer, List.take_add_one, List.getElem?_map,
        List.getElem?_eq_getElem hn]
      rfl
    · by_cases hjk : j < k
      · exact Nat.lt_succ_of_lt (hbefore j hjk)
      · exact Nat.lt_succ_of_le (hasked j (Nat.le_of_not_lt hjk) hj)

-- What is left when there is nothing more to give.
def drained (parser : SyntaxParser σ) (t : Transform) (source : ι) (s : σ) : BatchStream ι × σ :=
  let (_, transform, s) := t.run parser (eagerCalls source) s
  (⟨transform, asked ((toList source).length + 1) source, [], true⟩, s)

theorem Reached.eq_drained
    (h : Reached parser t source s (eagerCalls source).length n stream s')
    (hn : (t.run parser (eagerCalls source) s).1.length = n) :
    (stream, s') = drained parser t source s := by
  have hpending := h.pending
  have hstate := h.state
  have hexhausted := h.exhausted.mpr rfl
  have hchunks := h.chunks
  rw [made_all] at hstate hpending
  rw [← hn, List.drop_length] at hpending
  rw [length_eagerCalls] at hchunks
  obtain ⟨htransform, rfl⟩ := Prod.mk.inj hstate
  obtain ⟨transform, chunks, pending, exhausted⟩ := stream
  simp only at htransform hchunks hpending hexhausted
  rw [drained, htransform, hchunks, hpending, hexhausted]

-- Behind the last batch every call gives none and leaves all as it is.
theorem nextTimes_of_all (parser : SyntaxParser σ) (t : Transform) (source : ι) (s : σ) (m : Nat) :
    let total := (t.run parser (eagerCalls source) s).1
    (ofChunks t source).nextTimes parser s (total.length + m + 1) =
      (total.map some ++ List.replicate (m + 1) none, drained parser t source s) := by
  intro total
  induction m with
  | zero =>
    obtain ⟨hanswers, k, -, hreached⟩ :=
      exists_reached_nextTimes parser t source s (Nat.le_refl total.length)
    obtain ⟨hnone, hlast⟩ := hreached.next_of_all rfl
    have hall : (total.map some).take total.length = total.map some :=
      List.take_of_length_le (by rw [List.length_map])
    rw [nextTimes_succ]
    exact Prod.ext (congrArg₂ (· ++ [·]) (hanswers.trans hall) hnone) (hlast.eq_drained rfl)
  | succ m ih =>
    have hnext : (drained parser t source s).1.next parser (drained parser t source s).2 =
        (none, drained parser t source s) := next_of_exhausted rfl rfl
    rw [← Nat.add_assoc, nextTimes_succ, ih]
    simp only [hnext]
    rw [List.append_assoc, ← List.replicate_succ']

-- Taken one at a time the batches are those of pushing all chunks and flushing, in their order. A
-- batch of some call is given when the source has been asked just for what that call is given: one
-- chunk for each call up to it, and the end for the flush. Once there is no further batch neither
-- the source nor the transform nor the parser is touched again.
theorem batches_on_demand (parser : SyntaxParser σ) (t : Transform) (source : ι) (s : σ) :
    let chunks := toList source
    let calls := chunks.map Call.push ++ [Call.flush]
    let eager := (t.run parser calls s).1
    let stream := ofChunks t source
    (∀ n, (stream.nextTimes parser s n).1 =
      (eager.map some).take n ++ List.replicate (n - eager.length) none) ∧
    (∀ k, k ≤ chunks.length → (ChunkIterator.next (asked k source)).1 = chunks[k]?) ∧
    (∀ n k, (t.run parser (calls.take k) s).1.length ≤ n →
      n < (t.run parser (calls.take (k + 1)) s).1.length →
      (stream.nextTimes parser s (n + 1)).2.1.chunks = asked (k + 1) source) ∧
    ∀ n, eager.length < n → (stream.nextTimes parser s n).2 = drained parser t source s := by
  intro chunks calls eager stream
  have hbehind : ∀ n, eager.length < n → stream.nextTimes parser s n =
      (eager.map some ++ List.replicate (n - eager.length) none, drained parser t source s) := by
    intro n hn
    obtain ⟨m, rfl⟩ : ∃ m, n = eager.length + m + 1 := ⟨n - eager.length - 1, by omega⟩
    rw [Nat.add_assoc, Nat.add_sub_cancel_left]
    exact nextTimes_of_all parser t source s m
  refine ⟨fun n => ?_, fun k hk => next_asked hk, fun n k hn hlt => ?_, fun n hn => ?_⟩
  · by_cases hn : eager.length < n
    · rw [hbehind n hn, List.take_of_length_le (by rw [List.length_map]; omega)]
    · have hle := Nat.le_of_not_lt hn
      rw [Nat.sub_eq_zero_of_le hle, List.replicate_zero, List.append_nil]
      exact (exists_reached_nextTimes parser t source s hle).1
  · have hall := hlt.trans_le (made_le_eager parser t source s (k + 1)).length_le
    obtain ⟨-, later, hbefore, hreached⟩ := exists_reached_nextTimes parser t source s hall
    -- the calls before this one are not enough for the batch, and the one after it comes too late
    have hle : later ≤ k + 1 := by
      by_contra hnot
      exact absurd hlt (Nat.not_lt_of_le (Nat.le_of_lt_succ (hbefore (k + 1) (by omega))))
    have hge : k + 1 ≤ later := by
      by_contra hnot
      have hearlier := (made_mono parser t source s (Nat.le_of_not_lt hnot)).length_le
      exact absurd (hreached.given_le.trans (hearlier.trans hn)) (Nat.not_succ_le_self n)
    rw [← Nat.le_antisymm hle hge]
    exact hreached.chunks
  · rw [hbehind n hn]

-- The first chunks complete no line. The batch of the third one is given while the fourth has not
-- been taken yet.
theorem batches_on_demand_lines :
    let t := Transform.bare .plainText false
    let chunks := ["a", "", "b\nc", "d"]
    let calls := chunks.map Call.push ++ [Call.flush]
    let parser := SyntaxParser.absent
    (t.run parser (calls.take 2) ()).1.length ≤ 0 ∧ 0 < (t.run parser (calls.take 3) ()).1.length ∧
      ((ofChunks t chunks).nextTimes parser () 1).2.1.chunks = ["d"] := by
  intro t chunks calls parser
  have hbefore : (t.run parser (calls.take 2) ()).1.length ≤ 0 := by decide +kernel
  have hbatch : 0 < (t.run parser (calls.take 3) ()).1.length := by decide +kernel
  obtain ⟨-, -, hasked, -⟩ := batches_on_demand parser t chunks ()
  rw [toList_list] at hasked
  exact ⟨hbefore, hbatch, (hasked 0 2 hbefore hbatch).trans (asked_list 3 chunks)⟩

end BatchStream

end SyntaxStream
