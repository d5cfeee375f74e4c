import SyntaxStream.Proofs.Dict
import SyntaxStream.Proofs.Wire.Codec
import SyntaxStream.Wire.Result

namespace SyntaxStream

open Json (Document Fault RecordField)

namespace Json

-- A value that is no container, and whose number is natural if it is one.
def IsScalar (json : Json) : Prop := json.IsNatural ∧ json.depth = 0

theorem value_ofJson_of_depth {json : Json} (h : json.depth = 0) :
    (Document.ofJson json).value = .ok json := by
  cases json with
  | null => rw [Document.ofJson, Document.value]
  | bool b => rw [Document.ofJson, Document.value]
  | number n => rw [Document.ofJson, Document.value]
  | string s => rw [Document.ofJson, Document.value]
  | array items => cases h
  | object entries => cases h

theorem addValues_ofEntries {entries : List (String × Json)}
    (h : ∀ entry ∈ entries, entry.2.depth = 0) (found : Dict Json) :
    Document.addValues found (Document.ofEntries entries) =
      .ok (entries.foldl (fun d entry => d.insert entry.1 entry.2) found) := by
  induction entries generalizing found with
  | nil => rw [Document.ofEntries, Document.addValues, List.foldl_nil]
  | cons entry rest ih =>
    have hvalue := value_ofJson_of_depth (h entry List.mem_cons_self)
    rw [Document.ofEntries, Document.addValues, hvalue, List.foldl_cons]
    exact ih (fun other hm => h other (List.mem_cons_of_mem _ hm)) _

end Json

namespace Node

mutual

-- Whether the properties of a node and of all nodes within it are scalars.
def IsPlain : Node → Prop
  | text _ => True
  | element _ properties children =>
    (∀ entry ∈ properties.entries, entry.2.IsScalar) ∧ ArePlain children

def ArePlain : List Node → Prop
  | [] => True
  | node :: rest => node.IsPlain ∧ ArePlain rest

end

mutual

-- How many nodes stand within each other.
def height : Node → Nat
  | text _ => 1
  | element _ _ children => heights children + 1

def heights : List Node → Nat
  | [] => 0
  | node :: rest => max node.height (heights rest)

end

theorem arePlain_iff {nodes : List Node} : ArePlain nodes ↔ ∀ node ∈ nodes, node.IsPlain := by
  induction nodes with
  | nil => simp [ArePlain]
  | cons node rest ih => simp [ArePlain, ih]

theorem heights_le_iff {nodes : List Node} {n : Nat} :
    heights nodes ≤ n ↔ ∀ node ∈ nodes, node.height ≤ n := by
  induction nodes with
  | nil => simp [heights]
  | cons node rest ih => rw [heights, Nat.max_le, ih, List.forall_mem_cons]

theorem readProperties_ofEntries {properties : Dict Json}
    (h : ∀ entry ∈ properties.entries, entry.2.IsScalar) :
    readProperties (.object (Document.ofEntries properties.entries)) = .ok properties := by
  rw [readProperties, Document.entryValues,
    Json.addValues_ofEntries fun entry hm => (h entry hm).2]
  exact congrArg Except.ok (Dict.ofList_entries properties)

mutual

theorem ofDocument_ofJson (nested : Bool) : (node : Node) → node.IsPlain →
    ofDocument nested (Document.ofJson node.toJson) = .ok node
  | text value, _ => by
    simp only [toJson, Document.ofJson, Document.ofEntries, ofDocument, ofEntries, Kind.ofDocument,
      Document.value, Document.asString]
    rfl
  | element tag properties children, h => by
    rw [IsPlain] at h
    obtain ⟨v, hv⟩ := Document.exists_value_ofJson (.object properties.entries)
    obtain ⟨w, hw⟩ := Document.exists_value_ofJson (.array (toJsonList children))
    have hproperties := readProperties_ofEntries h.1
    have hchildren : readChildren (.array (Document.ofItems (toJsonList children))) =
        .ok children := by
      rw [readChildren]
      exact readNodes_ofItems true children h.2
    simp only [Document.ofJson] at hv hw
    simp only [toJson, Document.ofJson, Document.ofEntries, ofDocument, ofEntries, Kind.ofDocument,
      Document.value, Document.asString, hv, hw, hproperties, hchildren]
    rfl

theorem readNodes_ofItems (nested : Bool) : (nodes : List Node) → ArePlain nodes →
    readNodes nested (Document.ofItems (toJsonList nodes)) = .ok nodes
  | [], _ => by
    rw [toJsonList, Document.ofItems, readNodes]
  | node :: rest, h => by
    rw [ArePlain] at h
    rw [toJsonList, Document.ofItems, readNodes, ofDocument_ofJson nested node h.1,
      readNodes_ofItems nested rest h.2]
    rfl

end

mutual

theorem isNatural_toJson : (node : Node) → node.IsPlain → node.toJson.IsNatural
  | text value, _ => ⟨trivial, trivial, trivial⟩
  | element tag properties children, h => by
    rw [IsPlain] at h
    have hproperties : Json.EntriesAreNatural properties.entries :=
      Json.entriesAreNatural_iff.mpr fun entry hm => (h.1 entry hm).1
    rw [toJson, Json.IsNatural]
    exact ⟨trivial, trivial, hproperties, areNatural_toJsonList children h.2, trivial⟩

theorem areNatural_toJsonList : (nodes : List Node) → ArePlain nodes →
    Json.AreNatural (toJsonList nodes)
  | [], _ => trivial
  | node :: rest, h => by
    rw [ArePlain] at h
    exact ⟨isNatural_toJson node h.1, areNatural_toJsonList rest h.2⟩

end

mutual

-- Each node of a branch takes an object and an array.
theorem depth_toJson_le : (node : Node) → node.IsPlain → node.toJson.depth ≤ 2 * node.height
  | text value, _ => by
    simp only [toJson, height, Json.depth, Json.entriesDepth]
    omega
  | element tag properties children, h => by
    rw [IsPlain] at h
    have hproperties : Json.entriesDepth properties.entries ≤ 0 :=
      Json.entriesDepth_le_iff.mpr fun entry hm => Nat.le_of_eq (h.1 entry hm).2
    have hchildren := itemsDepth_toJsonList_le children h.2
    simp only [toJson, height, Json.depth, Json.entriesDepth]
    omega

theorem itemsDepth_toJsonList_le : (nodes : List Node) → ArePlain nodes →
    Json.itemsDepth (toJsonList nodes) ≤ 2 * heights nodes
  | [], _ => Nat.le_refl 0
  | node :: rest, h => by
    rw [ArePlain] at h
    have hnode := depth_toJson_le node h.1
    have hrest := itemsDepth_toJsonList_le rest h.2
    simp only [toJsonList, heights, Json.itemsDepth]
    omega

end

end Node

namespace HighlightResult

-- A result is read back from the document it is written as.
theorem ofDocument_ofJson {result : HighlightResult} (h : Node.ArePlain result.tree) :
    ofDocument (.ofJson result.toJson) = .ok result := by
  have htree (other : HighlightResult) :
      (fields[0]).put other (.array (Document.ofItems (Node.toJsonList result.tree))) =
        .ok { other with tree := result.tree } := by
    simp only [fields, List.getElem_cons_zero, readTree, Node.readNodes_ofItems false _ h]
    rfl
  simp only [ofDocument, toJson, Document.ofJson, Document.ofEntries, Document.readRecord]
  rw [Document.readEntries_of_field rfl rfl (htree _), Document.readEntries_of_field rfl rfl rfl,
    Document.readEntries_of_field rfl rfl rfl]
  rfl

theorem decode_writeJson [Codec] [Codec.ReadsBack] {result : HighlightResult}
    (h : Node.ArePlain result.tree) (hh : 2 * Node.heights result.tree + 2 ≤ Document.depthLimit) :
    Codec.decode ofDocument (Codec.writeJson result.toJson) = .ok result := by
  have hnatural : result.toJson.IsNatural := by
    rw [toJson, Json.IsNatural]
    exact ⟨Node.areNatural_toJsonList _ h, trivial, trivial, trivial⟩
  have hdepth : result.toJson.depth ≤ Document.depthLimit := by
    have htree := Node.itemsDepth_toJsonList_le result.tree h
    simp only [toJson, Json.depth, Json.entriesDepth]
    omega
  rw [Codec.decode_writeJson hnatural hdepth, ofDocument_ofJson h]

end HighlightResult

end SyntaxStream
