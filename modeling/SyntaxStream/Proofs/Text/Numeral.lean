import SyntaxStream.Text.Natural
import Mathlib.Data.List.Forall2
import Mathlib.Data.List.Induction
import Mathlib.Data.Nat.Digits.Defs
import Mathlib.Tactic.IntervalCases

namespace SyntaxStream.Text

-- A digit of a base and its value; a letter may be a capital.
def IsDigit (base : Nat) (c : Char) (value : Nat) : Prop :=
  value < base ∧ (c = Nat.digitChar value ∨ c = (Nat.digitChar value).toUpper)

instance (base : Nat) (c : Char) (value : Nat) : Decidable (IsDigit base c value) :=
  inferInstanceAs (Decidable (_ ∧ _))

-- The number that a sequence of digits stands for. The last of them counts least.
def Denotes (base : Nat) (cs : List Char) (n : Nat) : Prop :=
  ∃ values, List.Forall₂ (IsDigit base) cs.reverse values ∧ Nat.ofDigits base values = n

-- A numeral has at least one digit, and a plus sign may stand in front of the first.
inductive Numeral (base : Nat) : List Char → Nat → Prop
  | unsigned {digits : List Char} {n : Nat} (nonempty : digits ≠ [])
      (denotes : Denotes base digits n) : Numeral base digits n
  | signed {digits : List Char} {n : Nat} (nonempty : digits ≠ [])
      (denotes : Denotes base digits n) : Numeral base ('+' :: digits) n

-- The decimal numeral of a count or size.
def IsCount (cs : List Char) (n : Nat) : Prop := Numeral 10 cs n ∧ n < wordBound

variable {base bound n value : Nat} {c : Char} {cs : List Char}

-- All digits come before the letter g.
theorem toNat_lt_of_digitIn? (h : digitIn? base c = some value) : c.toNat < 103 := by
  by_contra hge
  have h9 : ¬ c ≤ '9' := fun hle => hge ((Char.le_def.mp hle).trans_lt (by decide))
  have hf : ¬ c ≤ 'f' := fun hle => hge ((Char.le_def.mp hle).trans_lt (by decide))
  have hF : ¬ c ≤ 'F' := fun hle => hge ((Char.le_def.mp hle).trans_lt (by decide))
  simp [digitIn?, h9, hf, hF] at h

theorem digitIn?_eq_some_iff (hbase : base ≤ 16) :
    digitIn? base c = some value ↔ IsDigit base c value := by
  have hsixteen : digitIn? 16 c = some value ↔ IsDigit 16 c value := by
    constructor
    · intro h
      have hascii : ∀ code < 103, ∀ v ∈ digitIn? 16 (Char.ofNat code),
          IsDigit 16 (Char.ofNat code) v := by decide +kernel
      have hcode := toNat_lt_of_digitIn? h
      rw [← Char.ofNat_toNat c] at h ⊢
      exact hascii c.toNat hcode value h
    · rintro ⟨hvalue, rfl | rfl⟩ <;> interval_cases value <;> decide
  have hbelow : digitIn? base c = some value ↔ digitIn? 16 c = some value ∧ value < base := by
    simp only [digitIn?, Option.filter_eq_some_iff, decide_eq_true_eq]
    constructor
    · rintro ⟨hread, hlt⟩
      exact ⟨⟨hread, hlt.trans_le hbase⟩, hlt⟩
    · rintro ⟨⟨hread, -⟩, hlt⟩
      exact ⟨hread, hlt⟩
  rw [hbelow, hsixteen, IsDigit, IsDigit]
  constructor
  · rintro ⟨⟨-, hwritten⟩, hlt⟩
    exact ⟨hlt, hwritten⟩
  · rintro ⟨hlt, hwritten⟩
    exact ⟨⟨hlt.trans_le hbase, hwritten⟩, hlt⟩

theorem denotes_nil_iff : Denotes base [] n ↔ n = 0 := by
  simp [Denotes, eq_comm]

theorem denotes_concat_iff : Denotes base (cs ++ [c]) n ↔
    ∃ m value, Denotes base cs m ∧ IsDigit base c value ∧ base * m + value = n := by
  rw [Denotes, List.reverse_append, List.reverse_singleton, List.singleton_append]
  simp only [List.forall₂_cons_left_iff]
  constructor
  · rintro ⟨_, ⟨value, values, hvalue, hvalues, rfl⟩, rfl⟩
    exact ⟨Nat.ofDigits base values, value, ⟨values, hvalues, rfl⟩, hvalue, Nat.add_comm ..⟩
  · rintro ⟨_, value, ⟨values, hvalues, rfl⟩, hvalue, rfl⟩
    exact ⟨value :: values, ⟨value, values, hvalue, hvalues, rfl⟩, Nat.add_comm ..⟩

theorem denotes_singleton_iff : Denotes base [c] n ↔ IsDigit base c n := by
  rw [← List.nil_append [c], denotes_concat_iff]
  simp [denotes_nil_iff]

-- By induction from the right, as the last digit is the last to be read.
theorem digits?_eq_some_iff (hbase : base ≤ 16) :
    digits? base cs = some n ↔ Denotes base cs n := by
  induction cs using List.reverseRecOn generalizing n with
  | nil =>
    rw [denotes_nil_iff]
    exact (Option.some_inj).trans eq_comm
  | append_singleton cs c ih =>
    have hstep : digits? base (cs ++ [c]) =
        (digits? base cs).bind fun m => (digitIn? base c).map (base * m + ·) := by
      simp [digits?, List.foldlM_append]
    simp only [hstep, denotes_concat_iff, Option.bind_eq_some_iff, Option.map_eq_some_iff, ih,
      digitIn?_eq_some_iff hbase, exists_and_left]

theorem not_isDigit_plus (hbase : base ≤ 16) : ¬ IsDigit base '+' value := by
  intro h
  have hread : none = some value := (digitIn?_eq_some_iff hbase).mpr h
  cases hread

theorem isDigit_of_denotes (h : Denotes base cs n) : ∀ c ∈ cs, ∃ value, IsDigit base c value := by
  induction cs using List.reverseRecOn generalizing n with
  | nil => exact List.forall_mem_nil _
  | append_singleton cs c ih =>
    obtain ⟨m, value, hm, hvalue, -⟩ := denotes_concat_iff.mp h
    exact List.forall_mem_append.mpr ⟨ih hm, List.forall_mem_singleton.mpr ⟨value, hvalue⟩⟩

theorem not_denotes_plus (hbase : base ≤ 16) : ¬ Denotes base ('+' :: cs) n := by
  intro h
  obtain ⟨value, hvalue⟩ := isDigit_of_denotes h '+' List.mem_cons_self
  exact not_isDigit_plus hbase hvalue

theorem numeral_plus_iff (hbase : base ≤ 16) :
    Numeral base ('+' :: cs) n ↔ cs ≠ [] ∧ Denotes base cs n := by
  constructor
  · rintro (⟨-, hdenotes⟩ | ⟨hne, hdenotes⟩)
    · exact absurd hdenotes (not_denotes_plus hbase)
    · exact ⟨hne, hdenotes⟩
  · rintro ⟨hne, hdenotes⟩
    exact .signed hne hdenotes

theorem numeral_iff_of_ne (hplus : cs.head? ≠ some '+') :
    Numeral base cs n ↔ cs ≠ [] ∧ Denotes base cs n := by
  constructor
  · rintro (⟨hne, hdenotes⟩ | -)
    · exact ⟨hne, hdenotes⟩
    · exact absurd rfl hplus
  · rintro ⟨hne, hdenotes⟩
    exact .unsigned hne hdenotes

-- What is read as a number are the numerals of numbers below the bound.
theorem naturalIn?_eq_some_iff (hbase : base ≤ 16) :
    naturalIn? base bound cs = some n ↔ Numeral base cs n ∧ n < bound := by
  have hread : ∀ body : List Char,
      (if body.isEmpty then none else (digits? base body).filter (· < bound)) = some n ↔
        (body ≠ [] ∧ Denotes base body n) ∧ n < bound := by
    intro body
    cases body <;> simp [digits?_eq_some_iff hbase]
  by_cases hplus : cs.head? = some '+'
  · obtain ⟨rest, rfl⟩ := List.head?_eq_some_iff.mp hplus
    rw [numeral_plus_iff hbase]
    exact hread rest
  · rw [numeral_iff_of_ne hplus, ← hread cs]
    unfold naturalIn?
    split
    · exact absurd rfl hplus
    · rfl

theorem natural?_eq_some_iff : natural? cs = some n ↔ IsCount cs n :=
  naturalIn?_eq_some_iff (by decide)

end SyntaxStream.Text
