import SyntaxStream.Color
import SyntaxStream.Proofs.Text.Boundary
import SyntaxStream.Proofs.Text.Numeral

namespace SyntaxStream

theorem bind_eq_ok_iff {ε α β : Type} {x : Except ε α} {f : α → Except ε β} {b : β} :
    x.bind f = .ok b ↔ ∃ a, x = .ok a ∧ f a = .ok b := by
  cases x <;> simp [Except.bind]

namespace Color

open Text

-- Whether a text is no color.
def Rejected (text : String) : Prop := ∃ reason, ofHex text = .error reason

theorem not_rejected_iff {text : String} : ¬ Rejected text ↔ ∃ color, ofHex text = .ok color := by
  unfold Rejected
  cases h : ofHex text <;> simp

def IsHexDigit (c : Char) : Prop := ∃ value, IsDigit 16 c value

-- Two hexadecimal digits and the byte that they stand for.
def DigitPair (a b : Char) (n : UInt8) : Prop :=
  ∃ high low, IsDigit 16 a high ∧ IsDigit 16 b low ∧ 16 * high + low = n.toNat

-- The numerals of a byte with two characters: there may be a plus sign and one digit only.
def NumeralPair (a b : Char) (n : UInt8) : Prop :=
  DigitPair a b n ∨ a = '+' ∧ IsDigit 16 b n.toNat

-- A text made of pairs of characters, and what the pairs stand for.
inductive Paired (pair : Char → Char → UInt8 → Prop) : List Char → List UInt8 → Prop
  | nil : Paired pair [] []
  | cons {a b : Char} {n : UInt8} {rest : List Char} {channels : List UInt8} (first : pair a b n)
      (others : Paired pair rest channels) : Paired pair (a :: b :: rest) (n :: channels)

-- The color with these channels. A color is opaque if there is none for that.
def ofChannels? : List UInt8 → Option Color
  | [red, green, blue] => some (opaqueOf red green blue)
  | [red, green, blue, alpha] => some ⟨red, green, blue, alpha⟩
  | _ => none

-- The notation of a color by its channels, each of them a pair of characters.
def Spelled (pair : Char → Char → UInt8 → Prop) (cs : List Char) (color : Color) : Prop :=
  ∃ channels, Paired pair cs channels ∧ ofChannels? channels = some color

-- A text without the number signs in front of it.
def withoutSigns (s : String) : List Char := s.toList.dropWhile (· == '#')

section Pairs

variable {a b : Char} {n : UInt8} {cs rest : List Char} {channels : List UInt8}
  {pair pair' : Char → Char → UInt8 → Prop} {text : String}

theorem utf8Size_of_isDigit {value : Nat} (h : IsDigit 16 a value) : a.utf8Size = 1 := by
  obtain ⟨hvalue, rfl | rfl⟩ := h <;> interval_cases value <;> decide

theorem numeral_pair_iff : Numeral 16 [a, b] n.toNat ↔ NumeralPair a b n := by
  by_cases hplus : a = '+'
  · subst hplus
    rw [numeral_plus_iff (Nat.le_refl 16), denotes_singleton_iff]
    constructor
    · rintro ⟨-, hdigit⟩
      exact .inr ⟨rfl, hdigit⟩
    · rintro (⟨high, -, hhigh, -⟩ | ⟨-, hdigit⟩)
      · exact absurd hhigh (not_isDigit_plus (Nat.le_refl 16))
      · exact ⟨List.cons_ne_nil b [], hdigit⟩
  · have hdigits : Denotes 16 [a, b] n.toNat ↔ DigitPair a b n := by
      rw [← List.singleton_append, denotes_concat_iff]
      simp only [denotes_singleton_iff, DigitPair]
    rw [numeral_iff_of_ne (by simpa using hplus), hdigits]
    simp [NumeralPair, hplus]

theorem utf8Size_of_numeralPair (h : NumeralPair a b n) : a.utf8Size = 1 ∧ b.utf8Size = 1 := by
  rcases h with ⟨high, low, hhigh, hlow, -⟩ | ⟨rfl, hdigit⟩
  · exact ⟨utf8Size_of_isDigit hhigh, utf8Size_of_isDigit hlow⟩
  · exact ⟨rfl, utf8Size_of_isDigit hdigit⟩

theorem utf8Size_of_numeral_singleton {value : Nat} (h : Numeral 16 [a] value) :
    a.utf8Size = 1 := by
  cases h with
  | unsigned _ hdenotes => exact utf8Size_of_isDigit (denotes_singleton_iff.mp hdenotes)
  | signed => rfl

theorem bytePair_eq_some_iff {bytes : List Char} : bytePair cs = some (bytes, rest) ↔
    (∃ a, a.utf8Size = 2 ∧ cs = a :: rest ∧ bytes = [a]) ∨
      ∃ a b, a.utf8Size = 1 ∧ b.utf8Size = 1 ∧ cs = a :: b :: rest ∧ bytes = [a, b] := by
  rcases cs with _ | ⟨a, _ | ⟨b, tail⟩⟩
  · simp [bytePair]
  · simp only [bytePair]
    grind
  · simp only [bytePair]
    grind

-- Two bytes that are one character are no numeral, so a channel takes two characters.
theorem channel_eq_ok_iff : channel text cs = .ok (n, rest) ↔
    ∃ a b, NumeralPair a b n ∧ cs = a :: b :: rest := by
  have hread : ∀ bytes m, naturalIn? 16 256 bytes = some m ↔ Numeral 16 bytes m ∧ m < 256 :=
    fun bytes m => naturalIn?_eq_some_iff (Nat.le_refl 16)
  constructor
  · intro h
    unfold channel at h
    split at h
    · cases h
    · next bytes tail hbytes =>
      split at h
      · cases h
      · next m hm =>
        cases h
        obtain ⟨hnumeral, hm⟩ := (hread bytes m).mp hm
        have hvalue : m.toUInt8.toNat = m := Nat.mod_eq_of_lt hm
        rcases bytePair_eq_some_iff.mp hbytes with
          ⟨a, ha, -, rfl⟩ | ⟨a, b, -, -, rfl, rfl⟩
        · rw [utf8Size_of_numeral_singleton hnumeral] at ha
          cases ha
        · rw [← hvalue] at hnumeral
          exact ⟨a, b, numeral_pair_iff.mp hnumeral, rfl⟩
  · rintro ⟨a, b, hpair, rfl⟩
    obtain ⟨ha, hb⟩ := utf8Size_of_numeralPair hpair
    have hbytes : bytePair (a :: b :: rest) = some ([a, b], rest) :=
      bytePair_eq_some_iff.mpr (.inr ⟨a, b, ha, hb, rfl, rfl⟩)
    have hnumber : naturalIn? 16 256 [a, b] = some n.toNat :=
      (hread [a, b] n.toNat).mpr ⟨numeral_pair_iff.mpr hpair, n.toNat_lt⟩
    simp [channel, hbytes, hnumber]

theorem channel_cons_cons (h : NumeralPair a b n) :
    channel text (a :: b :: rest) = .ok (n, rest) :=
  channel_eq_ok_iff.mpr ⟨a, b, h, rfl⟩

theorem byteLength_cons_cons (h : NumeralPair a b n) :
    byteLength (a :: b :: rest) = byteLength rest + 2 := by
  obtain ⟨ha, hb⟩ := utf8Size_of_numeralPair h
  rw [byteLength, byteLength, ha, hb]
  omega

theorem Paired.byteLength_eq (h : Paired NumeralPair cs channels) :
    byteLength cs = 2 * channels.length := by
  induction h with
  | nil => rfl
  | cons first _ ih =>
    rw [byteLength_cons_cons first, ih, List.length_cons]
    omega

theorem Paired.imp (h : Paired pair cs channels)
    (himp : ∀ a ∈ cs, ∀ b n, pair a b n → pair' a b n) : Paired pair' cs channels := by
  induction h with
  | nil => exact .nil
  | cons first _ ih =>
    exact .cons (himp _ List.mem_cons_self _ _ first) (ih fun a ha =>
      himp a (List.mem_cons_of_mem _ (List.mem_cons_of_mem _ ha)))

theorem Paired.length_eq (h : Paired pair cs channels) : cs.length = 2 * channels.length := by
  induction h with
  | nil => rfl
  | cons _ _ ih =>
    rw [List.length_cons, List.length_cons, ih, List.length_cons]
    omega

theorem exists_digitPair_iff : (∃ n, DigitPair a b n) ↔ IsHexDigit a ∧ IsHexDigit b := by
  constructor
  · rintro ⟨n, high, low, hhigh, hlow, -⟩
    exact ⟨⟨high, hhigh⟩, ⟨low, hlow⟩⟩
  · rintro ⟨⟨high, hhigh⟩, ⟨low, hlow⟩⟩
    have hbound : 16 * high + low < 256 := by
      have := hhigh.1
      have := hlow.1
      omega
    exact ⟨(16 * high + low).toUInt8, high, low, hhigh, hlow, (Nat.mod_eq_of_lt hbound).symm⟩

theorem exists_paired_iff (count : Nat) :
    (∃ channels, Paired DigitPair cs channels ∧ channels.length = count) ↔
      cs.length = 2 * count ∧ ∀ c ∈ cs, IsHexDigit c := by
  constructor
  · rintro ⟨channels, hpaired, rfl⟩
    refine ⟨hpaired.length_eq, ?_⟩
    induction hpaired with
    | nil => exact List.forall_mem_nil _
    | cons first _ ih =>
      obtain ⟨ha, hb⟩ := exists_digitPair_iff.mp ⟨_, first⟩
      exact List.forall_mem_cons.mpr ⟨ha, List.forall_mem_cons.mpr ⟨hb, ih⟩⟩
  · rintro ⟨hlength, hdigits⟩
    induction count generalizing cs with
    | zero =>
      obtain rfl := List.length_eq_zero_iff.mp hlength
      exact ⟨[], .nil, rfl⟩
    | succ count ih =>
      obtain ⟨a, b, rest, rfl⟩ : ∃ a b rest, cs = a :: b :: rest := by
        match cs, hlength with
        | a :: b :: rest, _ => exact ⟨a, b, rest, rfl⟩
      obtain ⟨ha, hdigits⟩ := List.forall_mem_cons.mp hdigits
      obtain ⟨hb, hdigits⟩ := List.forall_mem_cons.mp hdigits
      obtain ⟨n, first⟩ := exists_digitPair_iff.mpr ⟨ha, hb⟩
      have hrest : rest.length = 2 * count := by
        simp only [List.length_cons] at hlength
        omega
      obtain ⟨channels, others, rfl⟩ := ih hrest hdigits
      exact ⟨n :: channels, .cons first others, rfl⟩

end Pairs

section Colors

variable {s : String} {cs : List Char} {color : Color}

theorem eq_nil_of_byteLength (h : byteLength cs = 0) : cs = [] := by
  cases cs with
  | nil => rfl
  | cons c cs =>
    have hpos := c.utf8Size_pos
    rw [byteLength] at h
    omega

theorem ofHex_eq : ofHex s =
    let cs := withoutSigns s
    let text := String.ofList cs
    if byteLength cs = 6 ∨ byteLength cs = 8 then
      (channel text cs).bind fun (red, rest) =>
        (channel text rest).bind fun (green, rest) =>
          (channel text rest).bind fun (blue, rest) =>
            if byteLength cs = 6 then .ok (opaqueOf red green blue)
            else (channel text rest).bind fun (alpha, _) => .ok ⟨red, green, blue, alpha⟩
    else .error (.format text) := by
  unfold ofHex withoutSigns
  simp only [utf8ByteSize_ofList, length_cells, beq_iff_eq, Bool.or_eq_true]
  rfl

-- What is read as a color are pairs of characters that are numerals, and no other text.
theorem ofHex_eq_ok_iff : ofHex s = .ok color ↔ Spelled NumeralPair (withoutSigns s) color := by
  rw [ofHex_eq]
  generalize withoutSigns s = cs
  constructor
  · intro h
    simp only at h
    split at h
    · next hsize =>
      obtain ⟨⟨red, _⟩, hred, h⟩ := bind_eq_ok_iff.mp h
      obtain ⟨⟨green, _⟩, hgreen, h⟩ := bind_eq_ok_iff.mp h
      obtain ⟨⟨blue, rest⟩, hblue, h⟩ := bind_eq_ok_iff.mp h
      obtain ⟨a, b, first, rfl⟩ := channel_eq_ok_iff.mp hred
      obtain ⟨c, d, second, rfl⟩ := channel_eq_ok_iff.mp hgreen
      obtain ⟨e, f, third, rfl⟩ := channel_eq_ok_iff.mp hblue
      have hlength : byteLength (a :: b :: c :: d :: e :: f :: rest) = byteLength rest + 6 := by
        rw [byteLength_cons_cons first, byteLength_cons_cons second, byteLength_cons_cons third]
      rw [hlength] at h hsize
      split at h
      · have hrest : byteLength rest = 0 := by omega
        obtain rfl := eq_nil_of_byteLength hrest
        cases h
        exact ⟨_, .cons first (.cons second (.cons third .nil)), rfl⟩
      · obtain ⟨⟨alpha, tail⟩, halpha, h⟩ := bind_eq_ok_iff.mp h
        obtain ⟨g, i, fourth, rfl⟩ := channel_eq_ok_iff.mp halpha
        rw [byteLength_cons_cons fourth] at hsize
        have htail : byteLength tail = 0 := by omega
        obtain rfl := eq_nil_of_byteLength htail
        cases h
        exact ⟨_, .cons first (.cons second (.cons third (.cons fourth .nil))), rfl⟩
    · cases h
  · rintro ⟨channels, hpaired, hcolor⟩
    have hlength := hpaired.byteLength_eq
    rcases hpaired with _ | ⟨first, _ | ⟨second, _ | ⟨third, _ | ⟨fourth, _ | _⟩⟩⟩⟩ <;> cases hcolor
    · simp only [hlength, channel_cons_cons first, channel_cons_cons second,
        channel_cons_cons third, Except.bind]
      rfl
    · simp only [hlength, channel_cons_cons first, channel_cons_cons second,
        channel_cons_cons third, channel_cons_cons fourth, Except.bind]
      rfl

-- Without a plus sign in the text all numerals are pairs of digits.
theorem spelled_iff_of_notMem (h : '+' ∉ cs) :
    Spelled NumeralPair cs color ↔ Spelled DigitPair cs color := by
  constructor
  · rintro ⟨channels, hpaired, hcolor⟩
    refine ⟨channels, hpaired.imp fun a ha b n hpair => ?_, hcolor⟩
    rcases hpair with hdigits | ⟨rfl, -⟩
    · exact hdigits
    · exact absurd ha h
  · rintro ⟨channels, hpaired, hcolor⟩
    exact ⟨channels, hpaired.imp fun a _ b n hdigits => .inl hdigits, hcolor⟩

theorem exists_ofChannels?_iff {channels : List UInt8} :
    (∃ color, ofChannels? channels = some color) ↔ channels.length = 3 ∨ channels.length = 4 := by
  rcases channels with _ | ⟨red, _ | ⟨green, _ | ⟨blue, _ | ⟨alpha, _ | ⟨n, rest⟩⟩⟩⟩⟩ <;>
    simp [ofChannels?]

theorem exists_spelled_iff : (∃ color, Spelled DigitPair cs color) ↔
    (cs.length = 6 ∨ cs.length = 8) ∧ ∀ c ∈ cs, IsHexDigit c := by
  have hcount : (∃ color, Spelled DigitPair cs color) ↔
      (∃ channels, Paired DigitPair cs channels ∧ channels.length = 3) ∨
        ∃ channels, Paired DigitPair cs channels ∧ channels.length = 4 := by
    simp only [Spelled]
    rw [exists_comm]
    simp only [exists_and_left, exists_ofChannels?_iff, and_or_left, exists_or]
  rw [hcount, exists_paired_iff, exists_paired_iff, ← or_and_right]

theorem paired_hexDigits (channels : List UInt8) :
    Paired DigitPair (channels.flatMap hexDigits) channels := by
  induction channels with
  | nil => exact .nil
  | cons n channels ih =>
    have hbound := n.toNat_lt
    refine .cons ⟨n.toNat / 16, n.toNat % 16, ⟨by omega, .inl rfl⟩, ⟨by omega, .inl rfl⟩, ?_⟩ ih
    exact Nat.div_add_mod ..

theorem not_isDigit_sign {value : Nat} : ¬ IsDigit 16 '#' value := by
  rintro ⟨hvalue, h | h⟩ <;> interval_cases value <;> cases h

theorem withoutSigns_toHex (color : Color) : withoutSigns color.toHex =
    (if color.alpha == 255 then [color.red, color.green, color.blue]
      else [color.red, color.green, color.blue, color.alpha]).flatMap hexDigits := by
  unfold withoutSigns toHex
  generalize (if color.alpha == 255 then _ else _ : List UInt8) = channels
  have hdigits := ((exists_paired_iff _).mp ⟨channels, paired_hexDigits channels, rfl⟩).2
  simp only [String.toList_ofList, List.dropWhile_cons, beq_self_eq_true, if_true]
  generalize channels.flatMap hexDigits = cs at *
  cases cs with
  | nil => rfl
  | cons c cs =>
    obtain ⟨value, hvalue⟩ := hdigits c List.mem_cons_self
    have hsign : (c == '#') = false := by
      rw [beq_eq_false_iff_ne]
      rintro rfl
      exact not_isDigit_sign hvalue
    rw [List.dropWhile_cons, hsign]
    rfl

theorem spelled_toHex (color : Color) : Spelled DigitPair (withoutSigns color.toHex) color := by
  rw [withoutSigns_toHex]
  refine ⟨_, paired_hexDigits _, ?_⟩
  obtain ⟨red, green, blue, alpha⟩ := color
  by_cases hsolid : alpha = 255
  · subst hsolid
    rfl
  · simp [hsolid, ofChannels?]

theorem ofHex_toHex (color : Color) : ofHex color.toHex = .ok color := by
  obtain ⟨channels, hpaired, hcolor⟩ := spelled_toHex color
  exact ofHex_eq_ok_iff.mpr ⟨channels, hpaired.imp fun a _ b n h => .inl h, hcolor⟩

-- A text is read as a color if and only if, behind number signs, it spells the channels by
-- numerals of two characters; all other texts are rejected. Unless there is a plus sign in it the
-- numerals are the pairs of hexadecimal digits, three or four of them. What is written as the
-- notation of a color is read as that color.
theorem ofHex_reads_spelled (s : String) :
    (∀ color, ofHex s = .ok color ↔ Spelled NumeralPair (withoutSigns s) color) ∧
    (Rejected s ↔ ∀ color, ¬ Spelled NumeralPair (withoutSigns s) color) ∧
    ('+' ∉ withoutSigns s →
      (∀ color, ofHex s = .ok color ↔ Spelled DigitPair (withoutSigns s) color) ∧
      (¬ Rejected s ↔ ((withoutSigns s).length = 6 ∨ (withoutSigns s).length = 8) ∧
        ∀ c ∈ withoutSigns s, IsHexDigit c)) ∧
    ∀ color : Color, ofHex color.toHex = .ok color := by
  refine ⟨fun color => ofHex_eq_ok_iff, ?_, fun hplus => ⟨fun color => ?_, ?_⟩, ofHex_toHex⟩
  · rw [← not_iff_not, not_rejected_iff]
    simp only [ofHex_eq_ok_iff, not_forall, not_not]
  · rw [ofHex_eq_ok_iff, spelled_iff_of_notMem hplus]
  · simp only [not_rejected_iff, ofHex_eq_ok_iff, spelled_iff_of_notMem hplus, exists_spelled_iff]

-- Capital and small letters, and a number sign too many.
theorem ofHex_reads_spelled_translucent :
    '+' ∉ withoutSigns "##00fF7f01" ∧
      Spelled DigitPair (withoutSigns "##00fF7f01") ⟨0, 255, 127, 1⟩ := by
  have hplus : '+' ∉ withoutSigns "##00fF7f01" := by decide +kernel
  obtain ⟨-, -, hread, -⟩ := ofHex_reads_spelled "##00fF7f01"
  have hcolor : ofHex "##00fF7f01" = .ok ⟨0, 255, 127, 1⟩ := by decide +kernel
  exact ⟨hplus, ((hread hplus).1 _).mp hcolor⟩

-- With plus signs in it a text is read as a color though not all of it are digits.
theorem ofHex_reads_signed :
    ¬ ((∃ color, ofHex "#+1+2+3" = .ok color) ↔
      ((withoutSigns "#+1+2+3").length = 6 ∨ (withoutSigns "#+1+2+3").length = 8) ∧
        ∀ c ∈ withoutSigns "#+1+2+3", IsHexDigit c) := by
  have hread : ofHex "#+1+2+3" = .ok (opaqueOf 1 2 3) := by decide +kernel
  intro h
  obtain ⟨value, hvalue⟩ := (h.mp ⟨_, hread⟩).2 '+' (by decide +kernel)
  exact not_isDigit_plus (Nat.le_refl 16) hvalue

end Colors

end Color

end SyntaxStream
