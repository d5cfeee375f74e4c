import SyntaxStream.Theme.Library
import Mathlib.Data.List.Find

namespace SyntaxStream.ThemeLibrary

open Theme

variable {library : ThemeLibrary} {infos kept : List ThemeInfo} {info : ThemeInfo}
  {id fileName : String}

def keepFirst (kept : List ThemeInfo) (info : ThemeInfo) : List ThemeInfo :=
  if kept.any (·.id == info.id) then kept else kept ++ [info]

theorem firstOfId_eq (infos : List ThemeInfo) : firstOfId infos = infos.foldl keepFirst [] := rfl

theorem keepFirst_of_mem (h : info.id ∈ kept.map (·.id)) : keepFirst kept info = kept := by
  obtain ⟨other, hm, he⟩ := List.mem_map.mp h
  exact if_pos (List.any_eq_true.mpr ⟨other, hm, by rw [he, beq_self_eq_true]⟩)

theorem keepFirst_of_notMem (h : info.id ∉ kept.map (·.id)) :
    keepFirst kept info = kept ++ [info] := by
  apply if_neg
  rw [List.any_eq_true]
  rintro ⟨other, hm, he⟩
  exact h (List.mem_map.mpr ⟨other, hm, eq_of_beq he⟩)

theorem mem_foldl_keepFirst : info ∈ infos.foldl keepFirst kept ↔
    info ∈ kept ∨ (info.id ∉ kept.map (·.id) ∧ infos.find? (·.id == info.id) = some info) := by
  induction infos generalizing kept with
  | nil => simp
  | cons first rest ih =>
    rw [List.foldl_cons, ih]
    by_cases he : first.id = info.id
    · -- the first one is of this id, so that no later one is kept
      rw [List.find?_cons_of_pos (by simpa using he), Option.some.injEq]
      by_cases hf : first.id ∈ kept.map (·.id)
      · have hmem : info.id ∈ kept.map (·.id) := he ▸ hf
        simp only [keepFirst_of_mem hf, hmem, not_true_eq_false, false_and, or_false]
      · have hmem : info.id ∉ kept.map (·.id) := he ▸ hf
        have hnext : info.id ∈ (kept ++ [first]).map (·.id) := by simp [he]
        simp only [keepFirst_of_notMem hf, hnext, hmem, not_true_eq_false, not_false_eq_true,
          false_and, true_and, or_false, List.mem_append, List.mem_singleton, eq_comm]
    · rw [List.find?_cons_of_neg (by simpa using he)]
      by_cases hf : first.id ∈ kept.map (·.id)
      · rw [keepFirst_of_mem hf]
      · have hne : info ≠ first := fun h => he (congrArg ThemeInfo.id h.symm)
        simp only [keepFirst_of_notMem hf, List.map_append, List.mem_append, List.map_cons,
          List.map_nil, List.mem_singleton, hne, or_false, Ne.symm he]

theorem nodup_foldl_keepFirst (h : (kept.map (·.id)).Nodup) :
    ((infos.foldl keepFirst kept).map (·.id)).Nodup := by
  induction infos generalizing kept with
  | nil => exact h
  | cons first rest ih =>
    apply ih
    by_cases hf : first.id ∈ kept.map (·.id)
    · rwa [keepFirst_of_mem hf]
    · rw [keepFirst_of_notMem hf, List.map_append, List.nodup_append]
      refine ⟨h, by simp, ?_⟩
      rintro id hm _ hs rfl
      rw [List.map_singleton, List.mem_singleton] at hs
      exact hf (hs ▸ hm)

theorem mem_firstOfId : info ∈ firstOfId infos ↔ infos.find? (·.id == info.id) = some info := by
  simp [firstOfId_eq, mem_foldl_keepFirst]

-- The valid id before an extension, if a name ends in it.
def stem? (fileName ext : String) : Option String :=
  let suffix := '.' :: ext.toList
  let name := fileName.toList
  if suffix.isSuffixOf name then
    let id := String.ofList (name.take (name.length - suffix.length))
    if isValidId id then some id else none
  else none

theorem listedId?_eq (fileName : String) :
    listedId? fileName = (stem? fileName "yaml").or (stem? fileName "yml") := by
  have hfind : listedId? fileName = listedExtensions.findSome? (stem? fileName) := rfl
  rw [hfind, listedExtensions, List.findSome?_cons, List.findSome?_singleton]
  cases stem? fileName "yaml" <;> rfl

theorem stem?_eq_some_iff {ext : String} :
    stem? fileName ext = some id ↔ isValidId id = true ∧ fileName = id ++ ("." ++ ext) := by
  have hsuffix : ("." ++ ext).toList = '.' :: ext.toList := by
    rw [String.toList_append]
    rfl
  simp only [stem?]
  constructor
  · intro h
    split at h
    · rename_i hs
      obtain ⟨front, hf⟩ := List.isSuffixOf_iff_suffix.mp hs
      split at h
      · rename_i hv
        obtain rfl := Option.some.inj h
        refine ⟨hv, ?_⟩
        rw [← String.toList_inj, String.toList_append, hsuffix, ← hf]
        simp
      · cases h
    · cases h
  · rintro ⟨hv, rfl⟩
    rw [String.toList_append, hsuffix]
    simp [List.isSuffixOf_iff_suffix, hv]

theorem yaml_ne_yml (id other : String) : id ++ ".yaml" ≠ other ++ ".yml" := by
  intro h
  have hlast := congrArg (fun s : String => (s.toList.reverse.drop 2).head?) h
  simp [String.toList_append] at hlast

theorem listedId?_eq_some_iff :
    listedId? fileName = some id ↔
      isValidId id = true ∧ (fileName = id ++ ".yaml" ∨ fileName = id ++ ".yml") := by
  have hyaml : ∀ id, stem? fileName "yaml" = some id ↔
      isValidId id = true ∧ fileName = id ++ ".yaml" := fun id => stem?_eq_some_iff
  have hyml : stem? fileName "yml" = some id ↔
      isValidId id = true ∧ fileName = id ++ ".yml" := stem?_eq_some_iff
  rw [listedId?_eq, Option.or_eq_some_iff, hyaml, hyml]
  constructor
  · rintro (⟨hv, hf⟩ | ⟨-, hv, hf⟩)
    · exact ⟨hv, Or.inl hf⟩
    · exact ⟨hv, Or.inr hf⟩
  · rintro ⟨hv, hf | hf⟩
    · exact Or.inl ⟨hv, hf⟩
    · refine Or.inr ⟨?_, hv, hf⟩
      rw [Option.eq_none_iff_forall_ne_some]
      intro other ho
      exact yaml_ne_yml other id (((hyaml other).mp ho).2.symm.trans hf)

-- The first file of the directory that is listed under an id.
def listedFile? (library : ThemeLibrary) (id : String) : Option (String × FileEntry) :=
  library.files.find? fun file => listedId? file.1 == some id

theorem listedId?_of_listedFile? {file : String × FileEntry}
    (h : library.listedFile? id = some file) : listedId? file.1 = some id := by
  rw [listedFile?, List.find?_eq_some_iff_append] at h
  exact eq_of_beq h.1

-- What is listed under an id: a file if there is one, or else the built-in theme.
def infoOf? (library : ThemeLibrary) (id : String) : Option ThemeInfo :=
  match library.listedFile? id with
  | some (fileName, entry) => some (userInfo id fileName entry)
  | none => if id ∈ builtinIds then some (builtinInfo id) else none

def userInfos (library : ThemeLibrary) : List ThemeInfo :=
  library.files.filterMap fun file => (listedId? file.1).map fun id => userInfo id file.1 file.2

theorem list_eq (library : ThemeLibrary) :
    library.list = firstOfId (library.userInfos ++ builtinIds.map builtinInfo) := rfl

theorem find?_userInfos (library : ThemeLibrary) (id : String) :
    library.userInfos.find? (·.id == id) =
      (library.listedFile? id).map fun file => userInfo id file.1 file.2 := by
  have hlisted (file : String × FileEntry) :
      ((listedId? file.1).map fun id => userInfo id file.1 file.2).any (·.id == id) =
        (listedId? file.1 == some id) := by
    cases listedId? file.1 <;> rfl
  simp only [userInfos, List.find?_filterMap, hlisted]
  rw [← listedFile?]
  cases hf : library.listedFile? id with
  | none => rfl
  | some file =>
    rw [Option.bind_some, listedId?_of_listedFile? hf]
    rfl

theorem find?_builtinInfos (id : String) :
    (builtinIds.map builtinInfo).find? (·.id == id) =
      if id ∈ builtinIds then some (builtinInfo id) else none := by
  rw [List.find?_map]
  have hsame : (fun info : ThemeInfo => info.id == id) ∘ builtinInfo = (· == id) := rfl
  rw [hsame]
  split
  · rename_i hm
    cases hf : builtinIds.find? (· == id) with
    | none => exact absurd (List.find?_eq_none.mp hf id hm) (by simp)
    | some other =>
      have he : (other == id) = true := List.find?_some (p := (· == id)) hf
      rw [eq_of_beq he]
      rfl
  · rename_i hm
    rw [Option.map_eq_none_iff, List.find?_eq_none]
    rintro other ho he
    exact hm (eq_of_beq he ▸ ho)

-- The list has one entry for each id.
theorem mem_list_iff : info ∈ library.list ↔ library.infoOf? info.id = some info := by
  rw [list_eq, mem_firstOfId, List.find?_append, find?_userInfos, find?_builtinInfos, infoOf?]
  cases library.listedFile? info.id <;> rfl

theorem nodup_list (library : ThemeLibrary) : (library.list.map (·.id)).Nodup :=
  nodup_foldl_keepFirst List.nodup_nil

theorem lookup_of_file? {entry : FileEntry} (h : library.file? fileName = some entry) :
    library.files.lookup fileName = some entry :=
  (Option.filter_eq_some_iff.mp h).1

-- A file that is not found is not in the directory, or is a link that leads nowhere.
theorem file?_eq_none_iff : library.file? fileName = none ↔
    library.files.lookup fileName = none ∨ library.files.lookup fileName = some .brokenLink := by
  rw [file?, Option.filter_eq_none_iff]
  cases library.files.lookup fileName with
  | none => simp
  | some entry => simp [FileEntry.isThere]

-- Where a theme is found by its id: under the user's files, or among the built-in themes.
theorem load_of_valid (library : ThemeLibrary) (hv : isValidId id = true) :
    library.load id = match library.file? (id ++ ".yaml") with
      | some entry => ofFile id (id ++ ".yaml") entry
      | none => ofBuiltin id := by
  rw [load, hv]
  rfl

theorem find?_eq_lookup (files : List (String × FileEntry)) (key : String) :
    (files.find? fun file => file.1 == key) = (files.lookup key).map fun entry => (key, entry) := by
  induction files with
  | nil => rfl
  | cons file rest ih =>
    obtain ⟨name, entry⟩ := file
    by_cases hn : name = key
    · subst hn
      simp
    · rw [List.find?_cons_of_neg (by simpa using hn), ih, List.lookup_cons,
        beq_eq_false_iff_ne.mpr (Ne.symm hn)]

-- Unless there is a file of the other extension, the listed file is the one that is loaded.
theorem listedFile?_eq (hv : isValidId id = true)
    (hyml : library.files.lookup (id ++ ".yml") = none) :
    library.listedFile? id =
      (library.files.lookup (id ++ ".yaml")).map fun entry => (id ++ ".yaml", entry) := by
  rw [← find?_eq_lookup, listedFile?]
  apply List.find?_congr
  intro file hm
  have hne : file.1 ≠ id ++ ".yml" := (bne_iff_ne.mp (List.lookup_eq_none_iff.mp hyml file hm)).symm
  rw [Bool.eq_iff_iff, beq_iff_eq, beq_iff_eq, listedId?_eq_some_iff]
  simp [hv, hne]

theorem exists_listedFile? {entry : FileEntry} (hl : listedId? fileName = some id)
    (hf : library.files.lookup fileName = some entry) :
    ∃ file, library.listedFile? id = some file := by
  rw [← Option.isSome_iff_exists, listedFile?, List.find?_isSome]
  obtain ⟨front, back, hfiles, -⟩ := List.lookup_eq_some_iff.mp hf
  exact ⟨(fileName, entry), by simp [hfiles], beq_iff_eq.mpr hl⟩

theorem isValidId_of_builtin (h : id ∈ builtinIds) : isValidId id = true := by
  have hall : ∀ id ∈ builtinIds, isValidId id = true := by decide +kernel
  exact hall id h

theorem isValidId_of_mem_list (h : info ∈ library.list) : isValidId info.id = true := by
  have hinfo := mem_list_iff.mp h
  rw [infoOf?] at hinfo
  split at hinfo
  · rename_i fileName entry hf
    exact (listedId?_eq_some_iff.mp (listedId?_of_listedFile? hf)).1
  · split at hinfo
    · rename_i hm
      exact isValidId_of_builtin hm
    · cases hinfo

-- An entry that tells where its theme is found, and the name that it has there if it can be loaded.
structure Tells (library : ThemeLibrary) (info : ThemeInfo) : Prop where
  user : info.origin = .user → ∃ entry, library.file? (info.id ++ ".yaml") = some entry ∧
    library.load info.id = ofFile info.id (info.id ++ ".yaml") entry
  builtin : info.origin = .builtin → library.files.lookup (info.id ++ ".yaml") = none ∧
    library.load info.id = ofBuiltin info.id
  name : info.name = match library.load info.id with
    | .ok theme => theme.name
    | .error _ => info.id

theorem tells_of_mem_list (h : info ∈ library.list)
    (hyml : library.files.lookup (info.id ++ ".yml") = none)
    (hlink : library.files.lookup (info.id ++ ".yaml") ≠ some .brokenLink) :
    library.Tells info := by
  have hv := isValidId_of_mem_list h
  have hload := load_of_valid library hv
  have hinfo := mem_list_iff.mp h
  rw [infoOf?, listedFile?_eq hv hyml] at hinfo
  cases hfile : library.file? (info.id ++ ".yaml") with
  | some entry =>
    rw [lookup_of_file? hfile] at hinfo
    rw [hfile] at hload
    have hentry : userInfo info.id (info.id ++ ".yaml") entry = info := Option.some.inj hinfo
    have horigin : .user = info.origin := congrArg ThemeInfo.origin hentry
    refine ⟨fun _ => ⟨entry, hfile, hload⟩, fun hb => ?_, ?_⟩
    · rw [hb] at horigin
      cases horigin
    · rw [hload]
      exact (congrArg ThemeInfo.name hentry).symm
  | none =>
    have hyaml := (file?_eq_none_iff.mp hfile).resolve_right hlink
    rw [hyaml] at hinfo
    rw [hfile] at hload
    have hentry : (if info.id ∈ builtinIds then some (builtinInfo info.id) else none) = some info :=
      hinfo
    split at hentry
    · have hbuiltin := Option.some.inj hentry
      have horigin : .builtin = info.origin := congrArg ThemeInfo.origin hbuiltin
      refine ⟨fun hu => ?_, fun _ => ⟨hyaml, hload⟩, ?_⟩
      · rw [hu] at horigin
        cases horigin
      · rw [hload]
        exact (congrArg ThemeInfo.name hbuiltin).symm
    · cases hentry

-- A name that is listed as a file of the user, while loading finds no such file.
theorem passed_over_of_mem_list {entry : FileEntry} (h : info ∈ library.list)
    (hl : listedId? fileName = some info.id) (hf : library.files.lookup fileName = some entry)
    (hfile : library.file? (info.id ++ ".yaml") = none) :
    info.origin = .user ∧ library.load info.id = ofBuiltin info.id := by
  have hload := load_of_valid library (isValidId_of_mem_list h)
  have hinfo := mem_list_iff.mp h
  rw [hfile] at hload
  obtain ⟨file, hlisted⟩ := exists_listedFile? hl hf
  rw [infoOf?, hlisted] at hinfo
  have horigin : .user = info.origin := congrArg ThemeInfo.origin (Option.some.inj hinfo)
  exact ⟨horigin.symm, hload⟩

theorem name_of_brokenLink (h : info ∈ library.list)
    (hyml : library.files.lookup (info.id ++ ".yml") = none)
    (hlink : library.files.lookup (info.id ++ ".yaml") = some .brokenLink) :
    info.name = info.id := by
  have hinfo := mem_list_iff.mp h
  rw [infoOf?, listedFile?_eq (isValidId_of_mem_list h) hyml, hlink] at hinfo
  exact (congrArg ThemeInfo.name (Option.some.inj hinfo)).symm

theorem id_of_infoOf? (h : library.infoOf? id = some info) : info.id = id := by
  rw [infoOf?] at h
  split at h
  · exact congrArg ThemeInfo.id (Option.some.inj h).symm
  · split at h
    · exact congrArg ThemeInfo.id (Option.some.inj h).symm
    · cases h

theorem mem_ids_iff : id ∈ library.list.map (·.id) ↔
    (∃ file, library.listedFile? id = some file) ∨ id ∈ builtinIds := by
  have hids : id ∈ library.list.map (·.id) ↔ ∃ info, library.infoOf? id = some info := by
    rw [List.mem_map]
    constructor
    · rintro ⟨info, hm, rfl⟩
      exact ⟨info, mem_list_iff.mp hm⟩
    · rintro ⟨info, hinfo⟩
      obtain rfl := id_of_infoOf? hinfo
      exact ⟨info, mem_list_iff.mpr hinfo, rfl⟩
  rw [hids, infoOf?]
  cases library.listedFile? id with
  | some file => simp
  | none => by_cases hm : id ∈ builtinIds <;> simp [hm]

-- The list of themes and their loading go together. Each id is listed once, under where its theme
-- is found and with the name that it has there, and every id with which a theme is found is listed.
-- All this is so unless there is a file of the other extension, or a link that leads nowhere: it is
-- listed as a theme of the user, but loading passes it over.
theorem list_tells_load (library : ThemeLibrary) :
    (library.list.map (·.id)).Nodup ∧
    (∀ info ∈ library.list, library.files.lookup (info.id ++ ".yml") = none →
      library.files.lookup (info.id ++ ".yaml") ≠ some .brokenLink → library.Tells info) ∧
    (∀ info ∈ library.list, ∀ fileName entry, listedId? fileName = some info.id →
      library.files.lookup fileName = some entry → library.file? (info.id ++ ".yaml") = none →
      info.origin = .user ∧ library.load info.id = ofBuiltin info.id) ∧
    (∀ info ∈ library.list, library.files.lookup (info.id ++ ".yml") = none →
      library.files.lookup (info.id ++ ".yaml") = some .brokenLink → info.name = info.id) ∧
    ∀ id, (isValidId id = true ∧ ∃ entry, library.files.lookup (id ++ ".yaml") = some entry) ∨
        id ∈ builtinIds → id ∈ library.list.map (·.id) := by
  refine ⟨nodup_list library, fun _ hm hyml hlink => tells_of_mem_list hm hyml hlink,
    fun _ hm _ _ hl hf hfile => passed_over_of_mem_list hm hl hf hfile,
    fun _ hm hyml hlink => name_of_brokenLink hm hyml hlink, fun id hfound => ?_⟩
  rw [mem_ids_iff]
  rcases hfound with ⟨hv, entry, hyaml⟩ | hbuiltin
  · exact Or.inl (exists_listedFile? (listedId?_eq_some_iff.mpr ⟨hv, Or.inl rfl⟩) hyaml)
  · exact Or.inr hbuiltin

-- The file is listed with the name of its theme, and is not found.
theorem listed_yml_not_loaded :
    let library : ThemeLibrary := ⟨[("mine.yml", .text
      "version: 1\nname: Mine\nblock:\n  background: '#000000'\n  foreground: '#FFFFFF'\n")]⟩
    library.files.lookup "mine.yaml" = none ∧
      ⟨"mine", "Mine", .user⟩ ∈ library.list ∧
      library.load "mine" = .error (.unknownId "mine") := by
  decide +kernel

end SyntaxStream.ThemeLibrary
