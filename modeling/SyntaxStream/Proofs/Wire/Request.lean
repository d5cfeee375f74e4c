import SyntaxStream.Proofs.Dict
import SyntaxStream.Proofs.Wire.Codec
import SyntaxStream.Wire.Request

namespace SyntaxStream

open Json (Document Fault RecordField)

namespace ThemeSelection

theorem mapM_asString_ofEntries (entries : List (String × String)) :
    (Document.ofEntries (entries.map fun (variant, id) => (variant, Json.string id))).mapM
      (fun (variant, id) => do return (variant, ← id.asString) :
        String × Document → Except Fault (String × String)) = .ok entries := by
  induction entries with
  | nil => rfl
  | cons entry rest ih =>
    rw [List.map_cons, Document.ofEntries, List.mapM_cons, ih]
    rfl

-- A selection is read back from the document it is written as.
theorem ofDocument_ofJson (selection : ThemeSelection) :
    ofDocument (.ofJson selection.toJson) = .ok selection := by
  cases selection with
  | single id =>
    simp only [ofDocument, toJson, Document.ofJson, Document.value]
    rfl
  | variants themes =>
    obtain ⟨v, hv⟩ := Document.exists_value_ofJson (variants themes).toJson
    have hentries := mapM_asString_ofEntries themes.entries
    simp only [toJson, Document.ofJson] at hv ⊢
    simp only [ofDocument, hv, bind, Except.bind]
    simp only [bind, Except.bind] at hentries
    rw [hentries]
    simp only [Dict.ofList_entries]
    rfl

theorem isNatural_toJson (selection : ThemeSelection) : selection.toJson.IsNatural := by
  cases selection with
  | single id => trivial
  | variants themes =>
    rw [toJson, Json.IsNatural, Json.entriesAreNatural_iff]
    intro entry hm
    obtain ⟨pair, -, rfl⟩ := List.mem_map.mp hm
    trivial

theorem depth_toJson_le (selection : ThemeSelection) : selection.toJson.depth ≤ 1 := by
  cases selection with
  | single id => exact Nat.zero_le 1
  | variants themes =>
    rw [toJson, Json.depth]
    apply Nat.succ_le_succ
    rw [Json.entriesDepth_le_iff]
    intro entry hm
    obtain ⟨pair, -, rfl⟩ := List.mem_map.mp hm
    exact Nat.le_refl 0

theorem decode_writeJson [Codec] [Codec.ReadsBack] (selection : ThemeSelection) :
    Codec.decode ofDocument (Codec.writeJson selection.toJson) = .ok selection := by
  have hdepth : selection.toJson.depth ≤ Document.depthLimit :=
    Nat.le_trans (depth_toJson_le selection) (by decide)
  rw [Codec.decode_writeJson (isNatural_toJson selection) hdepth, ofDocument_ofJson]

end ThemeSelection

namespace HighlightOptions

-- Line numbers are numbers of 64 bits.
def HasWords (options : HighlightOptions) : Prop :=
  ∀ n ∈ options.highlights, n ≤ Json.Number.wordMax

-- Options are read back from the document they are written as.
theorem ofDocument_ofJson (options : HighlightOptions) :
    ofDocument (.ofJson options.toJson) = .ok options := by
  obtain ⟨highlights, fenceMeta⟩ := options
  have hput : (fields[0]).put .none (.array (Document.ofItems (highlights.map Json.ofNat))) =
      .ok ⟨highlights, .none⟩ := by
    simp only [fields, List.getElem_cons_zero, Document.asNaturalList,
      Document.asNaturals_ofItems]
    rfl
  cases fenceMeta with
  | none =>
    simp only [ofDocument, toJson, Json.optionalField, List.append_nil, Document.ofJson,
      Document.ofEntries, Document.readRecord]
    rw [Document.readEntries_of_field rfl rfl hput]
    rfl
  | some text =>
    simp only [ofDocument, toJson, Json.optionalField, List.cons_append, List.nil_append,
      Document.ofJson, Document.ofEntries, Document.readRecord]
    rw [Document.readEntries_of_field rfl rfl hput, Document.readEntries_of_field rfl rfl rfl]
    rfl

theorem isNatural_toJson {options : HighlightOptions} (h : options.HasWords) :
    options.toJson.IsNatural := by
  have hnumbers : (Json.array (options.highlights.map .ofNat)).IsNatural := by
    rw [Json.IsNatural, Json.areNatural_iff]
    intro item hm
    obtain ⟨n, hn, rfl⟩ := List.mem_map.mp hm
    exact ⟨Int.natCast_nonneg n, Int.ofNat_le.mpr (h n hn)⟩
  rw [toJson, Json.IsNatural]
  cases options.fenceMeta with
  | none => exact ⟨hnumbers, trivial⟩
  | some text => exact ⟨hnumbers, trivial, trivial⟩

theorem depth_toJson_le (options : HighlightOptions) : options.toJson.depth ≤ 2 := by
  have hnumbers : Json.itemsDepth (options.highlights.map .ofNat) ≤ 0 := by
    rw [Json.itemsDepth_le_iff]
    intro item hm
    obtain ⟨n, -, rfl⟩ := List.mem_map.mp hm
    exact Nat.le_refl 0
  rw [toJson]
  cases options.fenceMeta <;>
    simp only [Json.optionalField, List.append_nil, List.cons_append, List.nil_append, Json.depth,
      Json.entriesDepth] <;> omega

theorem decode_writeJson [Codec] [Codec.ReadsBack] {options : HighlightOptions}
    (h : options.HasWords) :
    Codec.decode ofDocument (Codec.writeJson options.toJson) = .ok options := by
  have hdepth : options.toJson.depth ≤ Document.depthLimit :=
    Nat.le_trans (depth_toJson_le options) (by decide)
  rw [Codec.decode_writeJson (isNatural_toJson h) hdepth, ofDocument_ofJson]

end HighlightOptions

namespace HighlightRequest

-- A request is read back from the document it is written as.
theorem ofDocument_ofJson (request : HighlightRequest) :
    ofDocument (.ofJson request.toJson) = .ok request := by
  have htheme (draft : Draft) : (draftFields[2]).put draft (.ofJson request.theme.toJson) =
      .ok { draft with theme := request.theme } := by
    simp only [draftFields, List.getElem_cons_succ, List.getElem_cons_zero,
      ThemeSelection.ofDocument_ofJson]
    rfl
  have hoptions (draft : Draft) : (draftFields[3]).put draft (.ofJson request.options.toJson) =
      .ok { draft with options := request.options } := by
    simp only [draftFields, List.getElem_cons_succ, List.getElem_cons_zero,
      HighlightOptions.ofDocument_ofJson]
    rfl
  simp only [ofDocument, toJson, Document.ofJson, Document.ofEntries, Document.readRecord]
  rw [Document.readEntries_of_field rfl rfl rfl, Document.readEntries_of_field rfl rfl rfl,
    Document.readEntries_of_field rfl rfl (htheme _),
    Document.readEntries_of_field rfl rfl (hoptions _)]
  rfl

theorem decode_writeJson [Codec] [Codec.ReadsBack] {request : HighlightRequest}
    (h : request.options.HasWords) :
    Codec.decode ofDocument (Codec.writeJson request.toJson) = .ok request := by
  have hnatural : request.toJson.IsNatural := by
    rw [toJson, Json.IsNatural]
    exact ⟨trivial, trivial, ThemeSelection.isNatural_toJson _,
      HighlightOptions.isNatural_toJson h, trivial⟩
  have hdepth : request.toJson.depth ≤ Document.depthLimit := by
    have htheme := ThemeSelection.depth_toJson_le request.theme
    have hoptions := HighlightOptions.depth_toJson_le request.options
    simp only [toJson, Json.depth, Json.entriesDepth, Document.depthLimit]
    omega
  rw [Codec.decode_writeJson hnatural hdepth, ofDocument_ofJson]

end HighlightRequest

end SyntaxStream
