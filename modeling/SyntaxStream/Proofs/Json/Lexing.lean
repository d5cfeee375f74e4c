import SyntaxStream.Json.Document

namespace SyntaxStream.Json

namespace Number

variable {n : Nat} {rest : List Char}

-- What cannot go on with a numeral.
def EndsNumeral (rest : List Char) : Prop :=
  ∀ c ∈ rest.head?, isDigit c = false ∧ c ≠ '.' ∧ c ≠ 'e' ∧ c ≠ 'E'

theorem endsNumeral_nil : EndsNumeral [] := by
  intro c hc
  cases hc

theorem isDigit_of_mem_toDigits {c : Char} (h : c ∈ Nat.toDigits 10 n) : isDigit c = true := by
  have hd := Nat.isDigit_of_mem_toDigits (by decide) (by decide) h
  simp only [Char.isDigit, Bool.and_eq_true, decide_eq_true_eq] at hd
  simp only [isDigit, Bool.and_eq_true, decide_eq_true_eq]
  exact hd

theorem head?_toDigits_ne_zero (h : 0 < n) : (Nat.toDigits 10 n).head? ≠ some '0' := by
  induction n using Nat.base_induction 10 (by decide) with
  | single m hm =>
    rw [Nat.toDigits_of_lt_base hm, List.head?_cons, ne_eq, Option.some.injEq,
      Nat.digitChar_eq_zero]
    exact Nat.ne_of_gt h
  | digit m k hk hm ih =>
    obtain ⟨c, cs, hcs⟩ := List.exists_cons_of_ne_nil (Nat.toDigits_ne_nil (n := m) (b := 10))
    rw [← Nat.toDigits_append_toDigits (by decide) hm hk, hcs, List.cons_append, List.head?_cons]
    have hhead := ih hm
    rwa [hcs, List.head?_cons] at hhead

theorem takeDigits_append {digits : List Char} (hd : ∀ c ∈ digits, isDigit c = true)
    (hr : EndsNumeral rest) : takeDigits (digits ++ rest) = (digits, rest) := by
  have htake : rest.takeWhile isDigit = [] ∧ rest.dropWhile isDigit = rest := by
    cases rest with
    | nil => exact ⟨rfl, rfl⟩
    | cons c rest =>
      have hc : isDigit c = false := (hr c rfl).1
      simp [hc]
  rw [takeDigits, List.takeWhile_append_of_pos hd, List.dropWhile_append_of_pos hd, htake.1,
    htake.2, List.append_nil]

theorem le_ofDigitChars (digits : List Char) (start : Nat) :
    start ≤ Nat.ofDigitChars 10 digits start := by
  induction digits generalizing start with
  | nil => exact Nat.le_of_eq Nat.ofDigitChars_nil.symm
  | cons c digits ih =>
    rw [Nat.ofDigitChars_cons]
    have := ih (10 * start + (c.toNat - '0'.toNat))
    omega

-- No digit is left over if the whole numeral fits a word.
theorem accumulate_eq {digits : List Char} {start : Nat}
    (h : Nat.ofDigitChars 10 digits start ≤ wordMax) :
    accumulate start digits = (Nat.ofDigitChars 10 digits start, []) := by
  induction digits generalizing start with
  | nil => rfl
  | cons c digits ih =>
    rw [Nat.ofDigitChars_cons] at h ⊢
    have hle := Nat.le_trans (le_ofDigitChars digits _) h
    rw [accumulate, if_neg (Nat.not_lt.mpr hle), ih h]

theorem ofNumeral_toDigits (hn : n ≤ wordMax) :
    ofNumeral false (Nat.toDigits 10 n) none none = some (.integer n) := by
  have hvalue : Nat.ofDigitChars 10 (Nat.toDigits 10 n) 0 ≤ wordMax := by
    rwa [Nat.ofDigitChars_ten_toDigits]
  rw [ofNumeral, accumulate_eq hvalue, Nat.ofDigitChars_ten_toDigits]
  rfl

theorem guard_eq_some {p : Prop} [Decidable p] (h : p) : (guard p : Option Unit) = some () :=
  if_pos h

theorem read_toDigits (hn : n ≤ wordMax) (hr : EndsNumeral rest) :
    read (Nat.toDigits 10 n ++ rest) = some (some (.integer n), rest) := by
  have hd : ∀ c ∈ Nat.toDigits 10 n, isDigit c = true := fun c => isDigit_of_mem_toDigits
  have hne : (!(Nat.toDigits 10 n).isEmpty) = true := by simp
  have hzero : ((Nat.toDigits 10 n).length == 1 || (Nat.toDigits 10 n).head? != some '0') = true := by
    rcases Nat.eq_zero_or_pos n with rfl | hpos
    · rw [Nat.toDigits_zero]
      rfl
    · simp [head?_toDigits_ne_zero hpos]
  have hvalue := ofNumeral_toDigits hn
  have htake := takeDigits_append hd hr
  have hsign : ∀ tail, Nat.toDigits 10 n ++ rest ≠ '-' :: tail := by
    intro tail he
    have hc : '-' ∈ Nat.toDigits 10 n := by
      obtain ⟨c, cs, hcs⟩ := List.exists_cons_of_ne_nil (Nat.toDigits_ne_nil (n := n) (b := 10))
      rw [hcs, List.cons_append] at he
      rw [hcs, (List.cons.inj he).1]
      exact List.mem_cons_self
    exact absurd (hd _ hc) (by decide)
  generalize Nat.toDigits 10 n = digits at *
  unfold read
  split
  rename_i negative cs hs
  obtain ⟨rfl, rfl⟩ : negative = false ∧ cs = digits ++ rest := by
    split at hs
    · exact absurd ‹_› (hsign _)
    · obtain ⟨rfl, rfl⟩ := Prod.mk.inj hs
      exact ⟨rfl, rfl⟩
  rw [htake]
  dsimp only
  rw [guard_eq_some hne, guard_eq_some hzero]
  cases rest with
  | nil => simp [hvalue]
  | cons c rest =>
    obtain ⟨-, hpoint, he, hE⟩ := hr c rfl
    simp [hvalue, hpoint, he, hE]

end Number

namespace Lexeme

variable {c : Char} {cs rest : List Char} {n : Nat}

def isPlain (c : Char) : Bool := 0x20 ≤ c.toNat && c != '"' && c != '\\'

-- Whether a text is an escape that stands for a character.
def escapes (text : List Char) (character : Char) : Bool :=
  match text with
  | [slash, u, a, b, c, d] =>
    slash == '\\' && u == 'u' && character.toNat < 0xD800 &&
      hexFour? a b c d == some character.toNat
  | [slash, e] => slash == '\\' && e != 'u' && escape? e == some character
  | _ => false

theorem escaped_of_isPlain (h : isPlain c = true) : escaped c = [c] := by
  simp only [isPlain, Bool.and_eq_true, decide_eq_true_eq, bne_iff_ne] at h
  obtain ⟨⟨hge, hquote⟩, hslash⟩ := h
  unfold escaped
  split <;> simp_all

theorem escapes_escaped_ofNat : ∀ n < 0x20, escapes (escaped (Char.ofNat n)) (Char.ofNat n) = true := by
  decide

theorem escapes_escaped (h : isPlain c = false) : escapes (escaped c) c = true := by
  by_cases hc : c.toNat < 0x20
  · have := escapes_escaped_ofNat c.toNat hc
    rwa [Char.ofNat_toNat] at this
  · have hcases : c = '"' ∨ c = '\\' := by
      simp [isPlain] at h
      by_cases hq : c = '"'
      · exact Or.inl hq
      · exact Or.inr (h (by omega) hq)
    rcases hcases with rfl | rfl <;> decide

theorem stringParts_of_escapes {text : List Char} (h : escapes text c = true)
    (rest : List Char) : stringParts (text ++ rest) =
      (stringParts rest).map fun found => (.char c :: found.1, found.2) := by
  unfold escapes at h
  split at h
  · simp only [Bool.and_eq_true, decide_eq_true_eq, beq_iff_eq] at h
    obtain ⟨⟨⟨rfl, rfl⟩, hlt⟩, hvalue⟩ := h
    have hhalf : ¬ 0xD800 ≤ c.toNat := Nat.not_le.mpr hlt
    simp only [List.cons_append, List.nil_append, stringParts, hvalue]
    cases stringParts rest with
    | none => rfl
    | some found => simp [hhalf, Char.ofNat_toNat]
  · simp only [Bool.and_eq_true, bne_iff_ne, beq_iff_eq] at h
    obtain ⟨⟨rfl, hu⟩, hvalue⟩ := h
    simp only [List.cons_append, List.nil_append]
    rw [stringParts]
    · rw [hvalue]
      cases stringParts rest <;> rfl
    · intro a b x d tail he
      exact absurd he hu
  · cases h

theorem stringParts_escaped (c : Char) (rest : List Char) :
    stringParts (escaped c ++ rest) =
      (stringParts rest).map fun found => (.char c :: found.1, found.2) := by
  cases hc : isPlain c with
  | false => exact stringParts_of_escapes (escapes_escaped hc) rest
  | true =>
    rw [escaped_of_isPlain hc]
    simp only [isPlain, Bool.and_eq_true, decide_eq_true_eq, bne_iff_ne] at hc
    obtain ⟨⟨hge, hquote⟩, hslash⟩ := hc
    have hlt : ¬ c.toNat < 0x20 := Nat.not_lt.mpr hge
    have hbeq : (c == '\\') = false := by simpa using hslash
    rw [List.singleton_append, stringParts]
    · simp only [hlt, hbeq]
      cases stringParts rest <;> simp
    all_goals simp_all

theorem stringParts_quoted (cs rest : List Char) :
    stringParts (cs.flatMap escaped ++ '"' :: rest) = some (cs.map .char, rest) := by
  induction cs with
  | nil => rfl
  | cons c cs ih =>
    rw [List.flatMap_cons, List.append_assoc, stringParts_escaped, ih]
    rfl

theorem joinParts_map_char (cs : List Char) : joinParts (cs.map .char) = some cs := by
  induction cs with
  | nil => rfl
  | cons c cs ih => rw [List.map_cons, joinParts, ih]; rfl

theorem all_of_next? {lexeme : Lexeme} (hb : isBlank c = false)
    (hnext : next? (c :: cs) = some (lexeme, rest)) (hle : rest.length ≤ cs.length) :
    all (c :: cs) = (lexeme :: (all rest).1, (all rest).2) := by
  have hdrop : (c :: cs).dropWhile isBlank = c :: cs := by
    rw [List.dropWhile_cons_of_neg]
    simp [hb]
  rw [all]
  split
  · rename_i hnil
    rw [hdrop] at hnil
    cases hnil
  · rw [hdrop, hnext]
    have hlt : rest.length < (c :: cs).length := Nat.lt_succ_of_le hle
    simp only [hlt, if_true]

theorem all_nil : all [] = ([], true) := by
  simp [all]

-- Whether a text gives some lexemes, whatever follows it. A numeral may not go on in it.
def Reads (text : List Char) (lexemes : List Lexeme) : Prop :=
  ∀ rest, Number.EndsNumeral rest →
    all (text ++ rest) = (lexemes ++ (all rest).1, (all rest).2)

theorem reads_nil : Reads [] [] := by
  intro rest _
  rfl

theorem reads_of_next? {lexeme : Lexeme} (hb : isBlank c = false)
    (hnext : ∀ rest, Number.EndsNumeral rest → next? (c :: cs ++ rest) = some (lexeme, rest)) :
    Reads (c :: cs) [lexeme] := by
  intro rest hr
  apply all_of_next? hb (hnext rest hr)
  simp

def isPunctuation (c : Char) : Bool := "[]\x7b\x7d:,".toList.contains c

theorem endsNumeral_of_isPunctuation (h : isPunctuation c = true) (rest : List Char) :
    Number.EndsNumeral (c :: rest) := by
  have hall : ("[]\x7b\x7d:,".toList.all fun c =>
      !Number.isDigit c && c != '.' && c != 'e' && c != 'E') = true := by decide
  intro x hx
  obtain rfl := Option.some.inj hx
  have hc := List.all_eq_true.mp hall c (List.contains_iff_mem.mp h)
  simpa [and_assoc] using hc

theorem isBlank_of_isPunctuation (h : isPunctuation c = true) : isBlank c = false := by
  have hall : ("[]\x7b\x7d:,".toList.all fun c => !isBlank c) = true := by decide
  have hc := List.all_eq_true.mp hall c (List.contains_iff_mem.mp h)
  simpa using hc

-- Punctuation ends whatever stands before it.
theorem Reads.append_punctuation {text text' : List Char} {lexemes lexemes' : List Lexeme}
    (hc : isPunctuation c = true) (h : Reads text lexemes) (h' : Reads text' lexemes') :
    Reads (text ++ c :: text') (lexemes ++ .punctuation c :: lexemes') := by
  intro rest hr
  have hbefore := h (c :: (text' ++ rest)) (endsNumeral_of_isPunctuation hc _)
  have hhere : all (c :: (text' ++ rest)) =
      (.punctuation c :: (all (text' ++ rest)).1, (all (text' ++ rest)).2) := by
    apply all_of_next? (isBlank_of_isPunctuation hc) _ (Nat.le_refl _)
    rw [isPunctuation] at hc
    simp only [next?, hc, if_true]
  rw [List.append_assoc, List.cons_append, hbefore, hhere, h' rest hr, List.append_assoc]
  rfl

theorem reads_string (s : String) :
    Reads (quoted s).toList [.string (some s)] := by
  rw [quoted, String.toList_ofList]
  apply reads_of_next? rfl
  intro rest _
  have hparts := stringParts_quoted s.toList rest
  have htext : '"' :: (s.toList.flatMap escaped ++ ['"']) ++ rest =
      '"' :: (s.toList.flatMap escaped ++ '"' :: rest) := by
    simp
  rw [htext, next?]
  simp [hparts, joinParts_map_char]

theorem reads_null : Reads "null".toList [.null] := by
  apply reads_of_next? (by decide)
  intro rest _
  rfl

theorem reads_bool (b : Bool) :
    Reads (if b then "true" else "false").toList [.bool b] := by
  cases b <;>
  · apply reads_of_next? (by decide)
    intro rest _
    rfl

theorem beq_of_isDigit {d : Char} (h : Number.isDigit c = true) (hd : Number.isDigit d = false) :
    (c == d) = false := by
  rw [beq_eq_false_iff_ne]
  rintro rfl
  rw [h] at hd
  cases hd

theorem isBlank_of_isDigit (h : Number.isDigit c = true) : isBlank c = false := by
  have hspace := beq_of_isDigit (d := ' ') h (by decide)
  have hnewline := beq_of_isDigit (d := '\n') h (by decide)
  have htab := beq_of_isDigit (d := '\t') h (by decide)
  have hreturn := beq_of_isDigit (d := '\r') h (by decide)
  simp [isBlank, hspace, hnewline, htab, hreturn]

theorem next?_of_isDigit (h : Number.isDigit c = true) (cs : List Char) :
    next? (c :: cs) = (Number.read (c :: cs)).map fun found => (.number found.1, found.2) := by
  have hmark : "[]\x7b\x7d:,".toList.contains c = false := by
    rw [← Bool.not_eq_true]
    intro hc
    have hdigit := (endsNumeral_of_isPunctuation hc [] c rfl).1
    rw [h] at hdigit
    cases hdigit
  have hquote := beq_of_isDigit (d := '"') h (by decide)
  have hn := beq_of_isDigit (d := 'n') h (by decide)
  have ht := beq_of_isDigit (d := 't') h (by decide)
  have hf := beq_of_isDigit (d := 'f') h (by decide)
  simp only [next?, hmark, hquote, hn, ht, hf, Bool.false_eq_true, if_false]

theorem reads_natural (hn : n ≤ Number.wordMax) :
    Reads (Nat.toDigits 10 n) [.number (some (.integer n))] := by
  obtain ⟨c, cs, hcs⟩ := List.exists_cons_of_ne_nil (Nat.toDigits_ne_nil (n := n) (b := 10))
  have hdigit : Number.isDigit c = true :=
    Number.isDigit_of_mem_toDigits (n := n) (hcs ▸ List.mem_cons_self)
  rw [hcs]
  apply reads_of_next? (isBlank_of_isDigit hdigit)
  intro rest hr
  have hread := Number.read_toDigits hn hr
  rw [hcs] at hread
  rw [List.cons_append, next?_of_isDigit hdigit, ← List.cons_append, hread]
  rfl

end Lexeme

mutual

-- The lexemes of a document as it is written.
def lexemes : Json → List Lexeme
  | null => [.null]
  | bool b => [.bool b]
  | number n => [.number (some n)]
  | string s => [.string (some s)]
  | array items => .punctuation '[' :: (itemLexemes items ++ [.punctuation ']'])
  | object entries => .punctuation '\x7b' :: (entryLexemes entries ++ [.punctuation '\x7d'])

def itemLexemes : List Json → List Lexeme
  | [] => []
  | [item] => item.lexemes
  | item :: rest => item.lexemes ++ .punctuation ',' :: itemLexemes rest

def entryLexemes : List (String × Json) → List Lexeme
  | [] => []
  | [(key, value)] => .string (some key) :: .punctuation ':' :: value.lexemes
  | (key, value) :: rest =>
    .string (some key) :: .punctuation ':' ::
      (value.lexemes ++ .punctuation ',' :: entryLexemes rest)

end

mutual

-- Whether all numbers are natural numbers of 64 bits.
def IsNatural : Json → Prop
  | number (.integer n) => 0 ≤ n ∧ n ≤ Number.wordMax
  | number (.float _) => False
  | array items => AreNatural items
  | object entries => EntriesAreNatural entries
  | _ => True

def AreNatural : List Json → Prop
  | [] => True
  | item :: rest => item.IsNatural ∧ AreNatural rest

def EntriesAreNatural : List (String × Json) → Prop
  | [] => True
  | (_, value) :: rest => value.IsNatural ∧ EntriesAreNatural rest

end

theorem areNatural_iff {items : List Json} :
    AreNatural items ↔ ∀ item ∈ items, item.IsNatural := by
  induction items with
  | nil => simp [AreNatural]
  | cons item rest ih => simp [AreNatural, ih]

theorem entriesAreNatural_iff {entries : List (String × Json)} :
    EntriesAreNatural entries ↔ ∀ entry ∈ entries, entry.2.IsNatural := by
  induction entries with
  | nil => simp [EntriesAreNatural]
  | cons entry rest ih => simp [EntriesAreNatural, ih]

open Lexeme

theorem reads_number {n : Int} (h : 0 ≤ n ∧ n ≤ Number.wordMax) :
    Reads (Number.integer n).render.toList [.number (some (.integer n))] := by
  obtain ⟨m, rfl⟩ := Int.eq_ofNat_of_zero_le h.1
  have hm : m ≤ Number.wordMax := Int.ofNat_le.mp h.2
  have htext : (Number.integer m).render.toList = Nat.toDigits 10 m := by
    rw [Number.render, Int.toString_eq_repr, Int.repr_eq_if, if_pos h.1, Int.toNat_natCast,
      Nat.toList_repr]
  rw [htext]
  exact reads_natural hm

-- The text of an entry: a key, a colon and a value.
theorem reads_entry (key : String) {text : List Char} {lexemes : List Lexeme}
    (h : Reads text lexemes) :
    Reads ((quoted key).toList ++ ':' :: text)
      (.string (some key) :: .punctuation ':' :: lexemes) :=
  (reads_string key).append_punctuation (by decide) h

mutual

theorem reads_compact : (value : Json) → value.IsNatural →
    Reads value.compact.toList value.lexemes
  | null, _ => by
    rw [compact, lexemes]
    exact reads_null
  | bool b, _ => by
    rw [compact, lexemes]
    exact reads_bool b
  | number (.integer n), h => by
    rw [IsNatural] at h
    rw [compact, lexemes]
    exact reads_number h
  | number (.float bits), h => by
    rw [IsNatural] at h
    exact h.elim
  | string s, _ => by
    rw [compact, lexemes]
    exact reads_string s
  | array items, h => by
    rw [IsNatural] at h
    have hitems := (reads_compactItems items h).append_punctuation (c := ']') (by decide) reads_nil
    have htext : (array items).compact.toList =
        [] ++ '[' :: ((compactItems items).toList ++ ']' :: []) := by
      simp [compact]
    rw [htext, lexemes]
    exact reads_nil.append_punctuation (by decide) hitems
  | object entries, h => by
    rw [IsNatural] at h
    have hentries :=
      (reads_compactEntries entries h).append_punctuation (c := '\x7d') (by decide) reads_nil
    have htext : (object entries).compact.toList =
        [] ++ '\x7b' :: ((compactEntries entries).toList ++ '\x7d' :: []) := by
      simp [compact]
    rw [htext, lexemes]
    exact reads_nil.append_punctuation (by decide) hentries

theorem reads_compactItems : (items : List Json) → AreNatural items →
    Reads (compactItems items).toList (itemLexemes items)
  | [], _ => reads_nil
  | [item], h => by
    rw [AreNatural] at h
    rw [compactItems, itemLexemes]
    exact reads_compact item h.1
  | item :: next :: rest, h => by
    rw [AreNatural] at h
    have hitem := reads_compact item h.1
    have hrest := reads_compactItems (next :: rest) h.2
    have htext : (compactItems (item :: next :: rest)).toList =
        item.compact.toList ++ ',' :: (compactItems (next :: rest)).toList := by
      simp [compactItems]
    rw [htext, itemLexemes]
    · exact hitem.append_punctuation (by decide) hrest
    · exact List.cons_ne_nil _ _

theorem reads_compactEntries : (entries : List (String × Json)) → EntriesAreNatural entries →
    Reads (compactEntries entries).toList (entryLexemes entries)
  | [], _ => reads_nil
  | [(key, value)], h => by
    rw [EntriesAreNatural] at h
    have hentry := reads_entry key (reads_compact value h.1)
    have htext : (compactEntries [(key, value)]).toList =
        (quoted key).toList ++ ':' :: value.compact.toList := by
      simp [compactEntries]
    rw [htext, entryLexemes]
    exact hentry
  | (key, value) :: next :: rest, h => by
    rw [EntriesAreNatural] at h
    have hentry := reads_entry key (reads_compact value h.1)
    have hrest := reads_compactEntries (next :: rest) h.2
    have htext : (compactEntries ((key, value) :: next :: rest)).toList =
        ((quoted key).toList ++ ':' :: value.compact.toList) ++
          ',' :: (compactEntries (next :: rest)).toList := by
      simp [compactEntries]
    rw [htext, entryLexemes]
    · exact hentry.append_punctuation (by decide) hrest
    · exact List.cons_ne_nil _ _

end

-- A document that is written gives back its lexemes, to the end of the text.
theorem all_compact {value : Json} (h : value.IsNatural) :
    all value.compact.toList = (value.lexemes, true) := by
  have hread := reads_compact value h [] Number.endsNumeral_nil
  rwa [List.append_nil, all_nil, List.append_nil] at hread

end SyntaxStream.Json
