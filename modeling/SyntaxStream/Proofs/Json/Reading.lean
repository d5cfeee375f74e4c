import SyntaxStream.Json.Record
import SyntaxStream.Proofs.Json.Lexing

namespace SyntaxStream.Json

mutual

-- How deeply containers are nested.
def depth : Json → Nat
  | array items => itemsDepth items + 1
  | object entries => entriesDepth entries + 1
  | _ => 0

def itemsDepth : List Json → Nat
  | [] => 0
  | item :: rest => max item.depth (itemsDepth rest)

def entriesDepth : List (String × Json) → Nat
  | [] => 0
  | (_, value) :: rest => max value.depth (entriesDepth rest)

end

theorem itemsDepth_le_iff {items : List Json} {n : Nat} :
    itemsDepth items ≤ n ↔ ∀ item ∈ items, item.depth ≤ n := by
  induction items with
  | nil => simp [itemsDepth]
  | cons item rest ih => rw [itemsDepth, Nat.max_le, ih, List.forall_mem_cons]

theorem entriesDepth_le_iff {entries : List (String × Json)} {n : Nat} :
    entriesDepth entries ≤ n ↔ ∀ entry ∈ entries, entry.2.depth ≤ n := by
  induction entries with
  | nil => simp [entriesDepth]
  | cons entry rest ih => rw [entriesDepth, Nat.max_le, ih, List.forall_mem_cons]

namespace Document

variable {s s' : State} {complete : Bool} {frames : List Frame} {expected : Expected}

theorem build_cons {lexeme : Lexeme} (rest : List Lexeme) (hroot : s.root = none)
    (hstep : s.step lexeme = some s') :
    build complete s (lexeme :: rest) = build complete s' rest := by
  rw [build, hroot, hstep]

-- Whether a value may stand here.
def Expected.isValue (expected : Expected) : Prop :=
  expected = .value ∨ expected = .valueOrClose

-- Where a value goes does not depend on what else could stand there.
theorem put_expected (expected expected' : Expected) (value : Document) :
    State.put ⟨frames, expected, none⟩ value = State.put ⟨frames, expected', none⟩ value := rfl

theorem pop_array {items : List Document} (hd : frames.length < depthLimit) :
    State.pop ⟨.array items :: frames, expected, none⟩ =
      State.put ⟨frames, expected, none⟩ (.array items.reverse) := by
  have hlimit : ¬ depthLimit < (Frame.array items :: frames).length := by
    rw [List.length_cons]
    omega
  rw [State.pop]
  simp only [hlimit, if_false, Frame.close]

theorem pop_object {entries : List (String × Document)} {key : Option String}
    (hd : frames.length < depthLimit) :
    State.pop ⟨.object entries key :: frames, expected, none⟩ =
      State.put ⟨frames, expected, none⟩ (.object entries.reverse) := by
  have hlimit : ¬ depthLimit < (Frame.object entries key :: frames).length := by
    rw [List.length_cons]
    omega
  rw [State.pop]
  simp only [hlimit, if_false, Frame.close]

theorem build_scalar {lexeme : Lexeme} {value : Document} (h : expected.isValue)
    (hstep : ∀ s : State, s.takesValue = true → s.step lexeme = some (s.put value))
    (rest : List Lexeme) :
    build complete ⟨frames, expected, none⟩ ([lexeme] ++ rest) =
      build complete (State.put ⟨frames, expected, none⟩ value) rest := by
  apply build_cons rest rfl
  apply hstep
  rcases h with rfl | rfl <;> rfl

theorem build_open_array (h : expected.isValue) (rest : List Lexeme) :
    build complete ⟨frames, expected, none⟩ (.punctuation '[' :: rest) =
      build complete ⟨.array [] :: frames, .valueOrClose, none⟩ rest := by
  apply build_cons rest rfl
  rcases h with rfl | rfl <;> rfl

theorem build_open_object (h : expected.isValue) (rest : List Lexeme) :
    build complete ⟨frames, expected, none⟩ (.punctuation '\x7b' :: rest) =
      build complete ⟨.object [] none :: frames, .keyOrClose, none⟩ rest := by
  apply build_cons rest rfl
  rcases h with rfl | rfl <;> rfl

-- An array is closed where a first item or a comma could stand.
theorem build_close_array {items : List Document} (hd : frames.length < depthLimit)
    (h : expected = .valueOrClose ∨ expected = .commaOrClose) (rest : List Lexeme) :
    build complete ⟨.array items :: frames, expected, none⟩ (.punctuation ']' :: rest) =
      build complete (State.put ⟨frames, .value, none⟩ (.array items.reverse)) rest := by
  apply build_cons rest rfl
  have hpop : State.pop ⟨.array items :: frames, expected, none⟩ = _ := pop_array hd
  rw [put_expected .value expected, ← hpop]
  rcases h with rfl | rfl <;> rfl

theorem build_close_object {entries : List (String × Document)} (hd : frames.length < depthLimit)
    (h : expected = .keyOrClose ∨ expected = .commaOrClose) (rest : List Lexeme) :
    build complete ⟨.object entries none :: frames, expected, none⟩ (.punctuation '\x7d' :: rest) =
      build complete (State.put ⟨frames, .value, none⟩ (.object entries.reverse)) rest := by
  apply build_cons rest rfl
  have hpop : State.pop ⟨.object entries none :: frames, expected, none⟩ = _ := pop_object hd
  rw [put_expected .value expected, ← hpop]
  rcases h with rfl | rfl <;> rfl

-- A key and a colon, after which the value of the key may stand.
theorem build_key {entries : List (String × Document)} (key : String)
    (h : expected = .keyOrClose ∨ expected = .key) (rest : List Lexeme) :
    build complete ⟨.object entries none :: frames, expected, none⟩
        (.string (some key) :: .punctuation ':' :: rest) =
      build complete ⟨.object entries (some key) :: frames, .value, none⟩ rest := by
  have hstep : State.step ⟨.object entries none :: frames, expected, none⟩ (.string (some key)) =
      some ⟨.object entries (some key) :: frames, .colon, none⟩ := by
    rcases h with rfl | rfl <;> rfl
  rw [build_cons _ rfl hstep]
  exact build_cons rest rfl rfl

mutual

-- The lexemes of a document put it where a value is expected.
theorem build_lexemes : (value : Json) → (frames : List Frame) → (expected : Expected) →
    expected.isValue → frames.length + value.depth ≤ depthLimit → (rest : List Lexeme) →
    build complete ⟨frames, expected, none⟩ (value.lexemes ++ rest) =
      build complete (State.put ⟨frames, expected, none⟩ (ofJson value)) rest
  | .null, frames, expected, h, _, rest => by
    rw [lexemes, ofJson]
    exact build_scalar h (by intro s hs; exact if_pos hs) rest
  | .bool b, frames, expected, h, _, rest => by
    rw [lexemes, ofJson]
    exact build_scalar h (by intro s hs; exact if_pos hs) rest
  | .number n, frames, expected, h, _, rest => by
    rw [lexemes, ofJson]
    exact build_scalar h (by intro s hs; exact if_pos hs) rest
  | .string text, frames, expected, h, _, rest => by
    rw [lexemes, ofJson]
    exact build_scalar h (by intro s hs; exact if_pos hs) rest
  | .array items, frames, expected, h, hd, rest => by
    rw [depth] at hd
    have hitems := build_items items [] frames .valueOrClose (.inr rfl) (by omega)
      (.punctuation ']' :: rest)
    rw [List.append_nil] at hitems
    rw [lexemes, ofJson, List.cons_append, List.append_assoc, List.singleton_append,
      build_open_array h, hitems, build_close_array (by omega) _, List.reverse_reverse]
    · rfl
    · cases items with
      | nil => exact Or.inl rfl
      | cons item rest => exact Or.inr rfl
  | .object entries, frames, expected, h, hd, rest => by
    rw [depth] at hd
    have hentries := build_entries entries [] frames .keyOrClose (.inl rfl) (by omega)
      (.punctuation '\x7d' :: rest)
    rw [List.append_nil] at hentries
    rw [lexemes, ofJson, List.cons_append, List.append_assoc, List.singleton_append,
      build_open_object h, hentries, build_close_object (by omega) _, List.reverse_reverse]
    · rfl
    · cases entries with
      | nil => exact Or.inl rfl
      | cons entry rest => exact Or.inr rfl

-- The lexemes of some items put them into the array that is being read.
theorem build_items : (items : List Json) → (found : List Document) → (frames : List Frame) →
    (expected : Expected) → expected.isValue →
    frames.length + 1 + itemsDepth items ≤ depthLimit → (rest : List Lexeme) →
    build complete ⟨.array found :: frames, expected, none⟩ (itemLexemes items ++ rest) =
      build complete ⟨.array ((ofItems items).reverse ++ found) :: frames,
        if items.isEmpty then expected else .commaOrClose, none⟩ rest
  | [], found, frames, expected, _, _, rest => rfl
  | [item], found, frames, expected, h, hd, rest => by
    rw [itemsDepth] at hd
    have hitem := build_lexemes item (.array found :: frames) expected h
      (by rw [List.length_cons]; omega) rest
    rw [itemLexemes, hitem]
    rfl
  | item :: next :: items, found, frames, expected, h, hd, rest => by
    rw [itemsDepth] at hd
    have hitem := build_lexemes item (.array found :: frames) expected h
      (by rw [List.length_cons]; omega)
      (.punctuation ',' :: (itemLexemes (next :: items) ++ rest))
    have hitems := build_items (next :: items) (ofJson item :: found) frames .value (.inl rfl)
      (by omega) rest
    have hcomma : build complete (State.put ⟨.array found :: frames, expected, none⟩ (ofJson item))
        (.punctuation ',' :: (itemLexemes (next :: items) ++ rest)) =
          build complete ⟨.array (ofJson item :: found) :: frames, .value, none⟩
            (itemLexemes (next :: items) ++ rest) :=
      build_cons _ rfl rfl
    rw [itemLexemes, List.append_assoc, List.cons_append, hitem, hcomma, hitems]
    · simp [ofItems]
    · exact List.cons_ne_nil _ _

-- The lexemes of some entries put them into the object that is being read.
theorem build_entries : (entries : List (String × Json)) → (found : List (String × Document)) →
    (frames : List Frame) → (expected : Expected) → expected = .keyOrClose ∨ expected = .key →
    frames.length + 1 + entriesDepth entries ≤ depthLimit → (rest : List Lexeme) →
    build complete ⟨.object found none :: frames, expected, none⟩ (entryLexemes entries ++ rest) =
      build complete ⟨.object ((ofEntries entries).reverse ++ found) none :: frames,
        if entries.isEmpty then expected else .commaOrClose, none⟩ rest
  | [], found, frames, expected, _, _, rest => rfl
  | [(key, value)], found, frames, expected, h, hd, rest => by
    rw [entriesDepth] at hd
    have hvalue := build_lexemes value (.object found (some key) :: frames)
      .value (.inl rfl) (by rw [List.length_cons]; omega) rest
    rw [entryLexemes, List.cons_append, List.cons_append, build_key key h, hvalue]
    rfl
  | (key, value) :: next :: entries, found, frames, expected, h, hd, rest => by
    rw [entriesDepth] at hd
    have hvalue := build_lexemes value (.object found (some key) :: frames)
      .value (.inl rfl) (by rw [List.length_cons]; omega)
      (.punctuation ',' :: (entryLexemes (next :: entries) ++ rest))
    have hentries := build_entries (next :: entries) ((key, ofJson value) :: found) frames .key
      (.inr rfl) (by omega) rest
    have hcomma : build complete
        (State.put ⟨.object found (some key) :: frames, .value, none⟩ (ofJson value))
        (.punctuation ',' :: (entryLexemes (next :: entries) ++ rest)) =
          build complete ⟨.object ((key, ofJson value) :: found) none :: frames, .key, none⟩
            (entryLexemes (next :: entries) ++ rest) :=
      build_cons _ rfl rfl
    rw [entryLexemes, List.cons_append, List.cons_append, List.append_assoc, List.cons_append,
      build_key key h, hvalue, hcomma, hentries]
    · simp [ofEntries]
    · exact List.cons_ne_nil _ _

end

-- A document that is written is read back whole.
theorem ofText_compact {value : Json} (hn : value.IsNatural) (hd : value.depth ≤ depthLimit) :
    ofText value.compact = (ofJson value, true) := by
  have hdepth : ([] : List Frame).length + value.depth ≤ depthLimit := by
    rwa [List.length_nil, Nat.zero_add]
  have hbuild : build true .start (value.lexemes ++ []) =
      build true (State.put .start (ofJson value)) [] :=
    build_lexemes value [] .value (.inl rfl) hdepth []
  rw [List.append_nil] at hbuild
  rw [ofText, all_compact hn]
  exact hbuild

end Document

namespace Document

mutual

-- What is written always has a value.
theorem exists_value_ofJson : (json : Json) → ∃ v, (ofJson json).value = .ok v
  | .null => ⟨.null, by rw [ofJson, value]⟩
  | .bool b => ⟨.bool b, by rw [ofJson, value]⟩
  | .number n => ⟨.number n, by rw [ofJson, value]⟩
  | .string s => ⟨.string s, by rw [ofJson, value]⟩
  | .array items => by
    obtain ⟨values, hv⟩ := exists_itemValues_ofItems items
    rw [ofJson, value, hv]
    exact ⟨_, rfl⟩
  | .object entries => by
    obtain ⟨values, hv⟩ := exists_addValues_ofEntries entries Dict.empty
    rw [ofJson, value, entryValues, hv]
    exact ⟨_, rfl⟩

theorem exists_itemValues_ofItems : (items : List Json) →
    ∃ values, itemValues (ofItems items) = .ok values
  | [] => ⟨[], by rw [ofItems, itemValues]⟩
  | item :: rest => by
    obtain ⟨v, hv⟩ := exists_value_ofJson item
    obtain ⟨values, hvs⟩ := exists_itemValues_ofItems rest
    rw [ofItems, itemValues, hv, hvs]
    exact ⟨_, rfl⟩

theorem exists_addValues_ofEntries : (entries : List (String × Json)) → (found : Dict Json) →
    ∃ values, addValues found (ofEntries entries) = .ok values
  | [], found => ⟨found, by rw [ofEntries, addValues]⟩
  | (key, json) :: rest, found => by
    obtain ⟨v, hv⟩ := exists_value_ofJson json
    obtain ⟨values, hvs⟩ := exists_addValues_ofEntries rest (found.insert key v)
    rw [ofEntries, addValues, hv]
    exact ⟨values, hvs⟩

end

theorem asNaturals_ofItems (numbers : List Nat) :
    asNaturals (ofItems (numbers.map Json.ofNat)) = .ok numbers := by
  induction numbers with
  | nil => rfl
  | cons n rest ih =>
    rw [List.map_cons, ofItems, asNaturals, ih]
    simp [Json.ofNat, ofJson, asNatural]
    rfl

variable {α : Type} {fields : List (RecordField α)} {seen : List String} {a a' : α} {key : String}

-- A field of the record that has not come before.
theorem readEntries_of_field {field : RecordField α} {d : Document}
    (hf : fields.find? (·.name == key) = some field) (hs : seen.contains key = false)
    (hp : field.put a d = .ok a') (rest : List (String × Document)) :
    readEntries fields seen a ((key, d) :: rest) = readEntries fields (key :: seen) a' rest := by
  rw [readEntries, hf]
  simp only [hs, hp]
  rfl

end Document

end SyntaxStream.Json
