import SyntaxStream.Highlight.Remote
import SyntaxStream.Proofs.Text.EncodedLength

namespace SyntaxStream.Remote

open Text

variable {r : HighlightRequest}

-- What a transport sends to fetch a result.
def sent (r : HighlightRequest) : List Http.Request :=
  ((transport fun request messages => (none, messages ++ [request])).fetch r []).2

theorem sent_eq (r : HighlightRequest) : sent r = [encode r] := rfl

-- The value of a parameter, as it is written in a query.
def writtenValue? (name query : String) : Option String :=
  ((splitAll (· == '&') query.toList).find? fun part =>
      part.takeWhile (· != '=') == name.toList).map fun part =>
    String.ofList ((part.dropWhile (· != '=')).drop 1)

theorem writtenValue?_encodeForm {name : String} (hname : formEncode name = name) (value : String)
    (others : List (String × String)) :
    writtenValue? name (encodeForm ((name, value) :: others)) = some (formEncode value) := by
  obtain ⟨htake, hdrop⟩ := split_writtenPair (name, value)
  rw [hname] at htake
  rw [writtenValue?, splitAll_encodeForm (List.cons_ne_nil _ _), List.map_cons,
    List.find?_cons_of_pos (by rw [htake, beq_self_eq_true]), Option.map_some, hdrop,
    List.drop_one, List.tail_cons, String.ofList_toList]

theorem method_eq_get_iff (r : HighlightRequest) :
    r.method = .get ↔ componentLength r.code < HighlightRequest.postThreshold := by
  unfold HighlightRequest.method
  split <;> simp <;> omega

-- A message without a body has the code in its query, written as in a form.
theorem exists_written_code (h : r.method = .get) :
    ∃ message query, sent r = [message] ∧ message.method = .get ∧ message.query = some query ∧
      writtenValue? "code" query = some (formEncode r.code) := by
  have hname : formEncode "code" = "code" := by decide +kernel
  refine ⟨encode r, encodeForm r.queryPairs, sent_eq r, ?_, ?_,
    writtenValue?_encodeForm hname r.code _⟩
  · rw [encode, h]
    rfl
  · rw [encode, h]
    rfl

-- What is limited is the length that code has in a component of an address. The address that is
-- sent has it in a form, where it is longer by the marks and shorter by the spaces; so the limit
-- holds for what is sent if there are no more marks than spaces.
theorem written_code_of_get (h : r.method = .get) :
    ∃ message query value, sent r = [message] ∧ message.method = .get ∧
      message.query = some query ∧ writtenValue? "code" query = some value ∧
      value.utf8ByteSize + 2 * spaces r.code < HighlightRequest.postThreshold + 2 * marks r.code ∧
      (marks r.code ≤ spaces r.code → value.utf8ByteSize < HighlightRequest.postThreshold) := by
  have hlimit := (method_eq_get_iff r).mp h
  have hlength := utf8ByteSize_formEncode r.code
  obtain ⟨message, query, hsent, hmethod, hquery, hvalue⟩ := exists_written_code h
  refine ⟨message, query, formEncode r.code, hsent, hmethod, hquery, hvalue, ?_, fun hmarks => ?_⟩
  · omega
  · omega

-- Two marks and two spaces, and a character beyond ASCII.
theorem written_code_of_get_rust :
    let r : HighlightRequest := ⟨"f (é) x", "rust", .unspecified, .none⟩
    r.method = .get ∧ marks r.code = 2 ∧ spaces r.code = 2 ∧
      ∃ message query value, sent r = [message] ∧ message.query = some query ∧
        writtenValue? "code" query = some value ∧
        value.utf8ByteSize < HighlightRequest.postThreshold := by
  intro r
  have hget : r.method = .get := by decide +kernel
  have hmarks : marks r.code = 2 := by decide +kernel
  have hspaces : spaces r.code = 2 := by decide +kernel
  obtain ⟨message, query, value, hsent, -, hquery, hvalue, -, hlength⟩ := written_code_of_get hget
  exact ⟨hget, hmarks, hspaces, message, query, value, hsent, hquery, hvalue,
    hlength (Nat.le_of_eq (hmarks.trans hspaces.symm))⟩

-- A third of the limit is enough if all of it is marks.
theorem written_code_exceeds_threshold :
    let r : HighlightRequest := ⟨allMarks 5120, "text", .unspecified, .none⟩
    r.method = .get ∧ ∃ message query value, sent r = [message] ∧ message.method = .get ∧
      message.query = some query ∧ writtenValue? "code" query = some value ∧
      value.utf8ByteSize = HighlightRequest.postThreshold := by
  intro r
  obtain ⟨hcomponent, hwritten⟩ := length_allMarks 5120
  have hget : r.method = .get := by
    rw [method_eq_get_iff, hcomponent]
    decide
  obtain ⟨message, query, hsent, hmethod, hquery, hvalue⟩ := exists_written_code hget
  exact ⟨hget, message, query, formEncode r.code, hsent, hmethod, hquery, hvalue, hwritten⟩

end SyntaxStream.Remote
