import SyntaxStream.Proofs.Color
import SyntaxStream.Proofs.Theme.Ancestors
import SyntaxStream.Theme.Basic
import Mathlib.Data.List.Forall2

namespace SyntaxStream

-- A list that is gone through without failing.
theorem mapM_eq_ok_iff {ε α β : Type} {f : α → Except ε β} {xs : List α} {ys : List β} :
    xs.mapM f = .ok ys ↔ List.Forall₂ (fun x y => f x = .ok y) xs ys := by
  induction xs generalizing ys with
  | nil => cases ys <;> simp [pure, Except.pure]
  | cons x xs ih =>
    rw [List.mapM_cons]
    cases hx : f x with
    | error reason => cases ys <;> simp [bind, Except.bind, hx]
    | ok y =>
      cases hxs : xs.mapM f with
      | error reason => cases ys <;> simp [bind, Except.bind, hx, ← ih, hxs]
      | ok rest => cases ys <;> simp [bind, Except.bind, pure, Except.pure, hx, ← ih, hxs]

theorem exists_forall₂_iff {α β : Type} {r : α → β → Prop} {xs : List α} :
    (∃ ys, List.Forall₂ r xs ys) ↔ ∀ x ∈ xs, ∃ y, r x y := by
  induction xs with
  | nil => exact ⟨fun _ _ hx => absurd hx List.not_mem_nil, fun _ => ⟨[], .nil⟩⟩
  | cons x xs ih =>
    rw [List.forall_mem_cons, ← ih]
    constructor
    · rintro ⟨_, _ | ⟨hfirst, hrest⟩⟩
      exact ⟨⟨_, hfirst⟩, ⟨_, hrest⟩⟩
    · rintro ⟨⟨y, hfirst⟩, ⟨ys, hrest⟩⟩
      exact ⟨y :: ys, .cons hfirst hrest⟩

namespace ThemeData

variable {data other : ThemeData} {scope name : String}

-- Whether the theme has an entry for a name that the vocabulary has as well.
def Styles (data : ThemeData) (name : String) : Prop :=
  name ∈ Scope.names ∧ (data.scopes.get? name).isSome

-- The color a theme gives to a scope: that of the entry for the longest ancestor it styles, and
-- else the foreground.
inductive Gives (data : ThemeData) (scope : String) (color : Color) : Prop
  | entry {name text : String} (ancestor : Scope.Ancestor scope name)
      (styled : data.Styles name)
      (longest : ∀ other, Scope.Ancestor scope other → data.Styles other →
        other.length ≤ name.length)
      (written : data.scopes.get? name = some text) (read : Color.ofHex text = .ok color)
  | foreground (unstyled : ∀ other, Scope.Ancestor scope other → ¬ data.Styles other)
      (read : Color.ofHex data.foreground = .ok color)

theorem Gives.unique {color color' : Color} (h : data.Gives scope color)
    (h' : data.Gives scope color') : color = color' := by
  cases h with
  | @entry name text ancestor styled longest written read =>
    cases h' with
    | @entry name' text' ancestor' styled' longest' written' read' =>
      have hle := longest name' ancestor' styled'
      have hge := longest' name ancestor styled
      obtain rfl := ancestor.eq_of_length_eq ancestor' (Nat.le_antisymm hge hle)
      rw [written] at written'
      cases written'
      rw [read] at read'
      cases read'
      rfl
    | foreground unstyled => exact absurd styled (unstyled name ancestor)
  | foreground unstyled read =>
    cases h' with
    | @entry name' _ ancestor' styled' => exact absurd styled' (unstyled name' ancestor')
    | foreground _ read' =>
      rw [read] at read'
      cases read'
      rfl

-- The themes whose entries for names of the vocabulary are the same.
def Agree (data other : ThemeData) : Prop :=
  ∀ name ∈ Scope.names, other.scopes.get? name = data.scopes.get? name

end ThemeData

namespace Theme

variable {id text name scope : String} {data : ThemeData} {theme : Theme}
variable {explicit : List (String × Color)} {color : Color}

theorem readColor_eq_ok_iff : readColor text = .ok color ↔ Color.ofHex text = .ok color := by
  unfold readColor
  cases Color.ofHex text <;> simp [Except.mapError]

-- An entry of a theme, and what is read of it.
def ReadsTo (entry : String × String) (colored : String × Color) : Prop :=
  ∃ color, Color.ofHex entry.2 = .ok color ∧ (entry.1, color) = colored

-- The parts of an accepted theme.
theorem ofData_eq_ok_iff : ofData id data = .ok theme ↔
    ∃ explicit background foreground, List.Forall₂ ReadsTo data.scopes.entries explicit ∧
      Color.ofHex data.background = .ok background ∧
      Color.ofHex data.foreground = .ok foreground ∧
      ⟨id, data.name, background, foreground, Scope.names.map (inherited explicit)⟩ = theme := by
  unfold ofData ReadsTo
  simp only [bind, pure, Except.pure, bind_eq_ok_iff, mapM_eq_ok_iff, readColor_eq_ok_iff,
    Except.ok.injEq, exists_and_left]

theorem id_of_ofData (h : ofData id data = .ok theme) : theme.id = id := by
  obtain ⟨explicit, background, foreground, -, -, -, rfl⟩ := ofData_eq_ok_iff.mp h
  rfl

-- A name is looked up in vain in both, or the text found is read as the color found.
theorem lookup_of_readsTo {entries : List (String × String)}
    (h : List.Forall₂ ReadsTo entries explicit) (name : String) :
    (entries.lookup name = none ∧ explicit.lookup name = none) ∨
      ∃ text color, entries.lookup name = some text ∧ explicit.lookup name = some color ∧
        Color.ofHex text = .ok color := by
  induction h with
  | nil => exact Or.inl ⟨rfl, rfl⟩
  | @cons entry colored entries explicit hread hrest ih =>
    obtain ⟨key, text⟩ := entry
    obtain ⟨color, hcolor, rfl⟩ := hread
    rw [List.lookup_cons, List.lookup_cons]
    by_cases hkey : name = key
    · rw [beq_iff_eq.mpr hkey]
      exact Or.inr ⟨text, color, rfl, rfl, hcolor⟩
    · rw [beq_eq_false_iff_ne.mpr hkey]
      exact ih

theorem lookup_eq {entries : List (String × String)}
    (h : List.Forall₂ ReadsTo entries explicit) (name : String) :
    explicit.lookup name = (entries.lookup name).bind fun text => (Color.ofHex text).toOption := by
  rcases lookup_of_readsTo h name with ⟨hwritten, hread⟩ | ⟨text, color, hwritten, hread, hcolor⟩
  · rw [hwritten, hread]
    rfl
  · rw [hwritten, hread, Option.bind_some, hcolor]
    rfl

theorem accepted_iff : (∃ theme, ofData id data = .ok theme) ↔
    ¬ Color.Rejected data.background ∧ ¬ Color.Rejected data.foreground ∧
      ∀ entry ∈ data.scopes.entries, ¬ Color.Rejected entry.2 := by
  simp only [Color.not_rejected_iff, ofData_eq_ok_iff]
  constructor
  · rintro ⟨theme, explicit, background, foreground, hentries, hbackground, hforeground, -⟩
    refine ⟨⟨background, hbackground⟩, ⟨foreground, hforeground⟩, ?_⟩
    intro entry hentry
    obtain ⟨colored, color, hcolor, -⟩ := exists_forall₂_iff.mp ⟨explicit, hentries⟩ entry hentry
    exact ⟨color, hcolor⟩
  · rintro ⟨⟨background, hbackground⟩, ⟨foreground, hforeground⟩, hread⟩
    have hentries : ∃ explicit, List.Forall₂ ReadsTo data.scopes.entries explicit := by
      apply exists_forall₂_iff.mpr
      intro entry hentry
      obtain ⟨color, hcolor⟩ := hread entry hentry
      exact ⟨_, color, hcolor, rfl⟩
    obtain ⟨explicit, hentries⟩ := hentries
    exact ⟨_, explicit, background, foreground, hentries, hbackground, hforeground, rfl⟩

-- A theme that is not accepted has a text in the place of a color that is none.
theorem refused_iff : (∃ reason, ofData id data = .error reason) ↔
    Color.Rejected data.background ∨ Color.Rejected data.foreground ∨
      ∃ entry ∈ data.scopes.entries, Color.Rejected entry.2 := by
  have hrefused : (∃ reason, ofData id data = .error reason) ↔
      ¬ ∃ theme, ofData id data = .ok theme := by
    cases ofData id data <;> simp
  rw [hrefused, accepted_iff]
  simp only [not_and_or, not_not, not_forall, exists_prop]

-- The color of a scope is that of its first ancestor which the vocabulary and the theme have.
theorem colorForScope_eq {background foreground : Color} :
    (Theme.mk id name background foreground
      (Scope.names.map (inherited explicit))).colorForScope (some scope) =
        ((Scope.ancestors scope).findSome? (Scope.offered (explicit.lookup ·))).getD
          foreground := by
  have hcolor : (Theme.mk id name background foreground
      (Scope.names.map (inherited explicit))).colorFor =
        fun n => (Scope.name? n).bind (inherited explicit) := by
    funext n
    unfold colorFor Scope.name?
    rw [List.getElem?_map]
    cases Scope.names[n]? <;> rfl
  unfold colorForScope
  rw [← Scope.findSome?_known, Option.bind_some, hcolor, Option.bind_assoc]
  rfl

theorem isSome_offered_iff (h : List.Forall₂ ReadsTo data.scopes.entries explicit) :
    (Scope.offered (explicit.lookup ·) name).isSome ↔ data.Styles name := by
  unfold Scope.offered ThemeData.Styles Dict.get?
  by_cases hknown : name ∈ Scope.names
  · rcases lookup_of_readsTo h name with ⟨hwritten, hread⟩ | ⟨text, color, hwritten, hread, -⟩
    · simp [hwritten, hread]
    · simp [hknown, hwritten, hread]
  · simp [hknown]

theorem gives_of_accepted (h : ofData id data = .ok theme) (scope : String) :
    data.Gives scope (theme.colorForScope (some scope)) := by
  obtain ⟨explicit, _, foreground, hentries, -, hforeground, rfl⟩ := ofData_eq_ok_iff.mp h
  rw [colorForScope_eq]
  cases hfirst : (Scope.ancestors scope).findSome? (Scope.offered (explicit.lookup ·)) with
  | none =>
    refine .foreground ?_ hforeground
    intro other hother hstyles
    have hsome := (isSome_offered_iff hentries).mpr hstyles
    rw [List.findSome?_eq_none_iff.mp hfirst other (Scope.mem_ancestors_iff.mpr hother)] at hsome
    cases hsome
  | some color =>
    obtain ⟨nearest, hnearest, hoffered, hlongest⟩ := Scope.findSome?_ancestors.mp hfirst
    have hstyles := (isSome_offered_iff hentries).mp (Option.isSome_of_eq_some hoffered)
    have hlookup : explicit.lookup nearest = some color := by
      rwa [Scope.offered, if_pos hstyles.1] at hoffered
    obtain ⟨-, hnone⟩ | ⟨text, color', hwritten, hread, hcolor⟩ :=
      lookup_of_readsTo hentries nearest
    · rw [hnone] at hlookup
      cases hlookup
    · rw [hread] at hlookup
      cases hlookup
      refine .entry hnearest hstyles ?_ hwritten hcolor
      intro other hother hstyled
      exact hlongest other hother ((isSome_offered_iff hentries).mpr hstyled)

-- What the theme has for names outside the vocabulary does not show in the table.
theorem colors_of_agree {other : ThemeData} {id' : String} {theme' : Theme}
    (h : ofData id data = .ok theme) (h' : ofData id' other = .ok theme')
    (hagree : data.Agree other) : theme'.colors = theme.colors := by
  obtain ⟨explicit, _, _, hentries, -, -, rfl⟩ := ofData_eq_ok_iff.mp h
  obtain ⟨explicit', _, _, hentries', -, -, rfl⟩ := ofData_eq_ok_iff.mp h'
  apply List.map_congr_left
  intro name hname
  apply findSome?_congr
  intro farther hfarther
  have hsame : other.scopes.entries.lookup farther = data.scopes.entries.lookup farther :=
    hagree farther (Scope.ancestors_subset_names hname hfarther)
  rw [lookup_eq hentries, lookup_eq hentries', hsame]

theorem foreground_of_ofData (h : ofData id data = .ok theme) :
    Color.ofHex data.foreground = .ok theme.foreground := by
  obtain ⟨_, _, foreground, -, -, hforeground, rfl⟩ := ofData_eq_ok_iff.mp h
  exact hforeground

-- An accepted theme colors a scope by the longest of its ancestors that the vocabulary and the
-- theme both have, and in the foreground when there is none; entries for other names do not show.
-- A theme is refused for any text that is no color, those of such entries too.
theorem colors_by_longest_ancestor (id : String) (data : ThemeData) :
    (∀ theme, ofData id data = .ok theme →
      (∀ scope color, theme.colorForScope (some scope) = color ↔ data.Gives scope color) ∧
      ∀ other id' theme', data.Agree other → ofData id' other = .ok theme' →
        theme'.colors = theme.colors ∧
        (other.foreground = data.foreground →
          ∀ scope, theme'.colorForScope scope = theme.colorForScope scope)) ∧
    ((∃ reason, ofData id data = .error reason) ↔
      Color.Rejected data.background ∨ Color.Rejected data.foreground ∨
        ∃ entry ∈ data.scopes.entries, Color.Rejected entry.2) := by
  refine ⟨fun theme h => ⟨fun scope color => ⟨?_, fun hgives => ?_⟩, ?_⟩, refused_iff⟩
  · rintro rfl
    exact gives_of_accepted h scope
  · exact (gives_of_accepted h scope).unique hgives
  · intro other id' theme' hagree h'
    have hcolors := colors_of_agree h h' hagree
    refine ⟨hcolors, fun hsame scope => ?_⟩
    have hforeground := foreground_of_ofData h
    rw [← hsame, foreground_of_ofData h'] at hforeground
    injection hforeground with hforeground
    unfold colorForScope colorFor
    rw [hcolors, hforeground]

-- A theme with entries for one name of the vocabulary and for two names that are none of it.
def sparse : ThemeData where
  version := 1
  name := "Sparse"
  author := none
  description := none
  background := "#000000"
  foreground := "#ffffff"
  scopes := .ofList
    [("keyword", "#ff0000"), ("keyword.control", "#00ff00"), ("keyword.return.", "#0000ff")]

-- The longer entries for unknown names are passed over, and a name that starts with a dot has no
-- ancestor in the vocabulary.
theorem colors_by_longest_ancestor_sparse :
    Theme.sparse.Gives "keyword.control.import" (.opaqueOf 255 0 0) ∧
      Theme.sparse.Gives "keyword.return..later" (.opaqueOf 255 0 0) ∧
      Theme.sparse.Gives ".keyword" (.opaqueOf 255 255 255) := by
  let theme : Theme := ⟨"sparse", "Sparse", .opaqueOf 0 0 0, .opaqueOf 255 255 255,
    Scope.names.map (inherited [("keyword", .opaqueOf 255 0 0),
      ("keyword.control", .opaqueOf 0 255 0), ("keyword.return.", .opaqueOf 0 0 255)])⟩
  have haccepted : ofData "sparse" sparse = .ok theme := by
    unfold theme
    decide +kernel
  have hgives := ((colors_by_longest_ancestor "sparse" sparse).1 theme haccepted).1
  refine ⟨?_, ?_, ?_⟩
  · exact (hgives _ _).mp (by decide +kernel)
  · exact (hgives _ _).mp (by decide +kernel)
  · exact (hgives _ _).mp (by decide +kernel)

end Theme

end SyntaxStream
