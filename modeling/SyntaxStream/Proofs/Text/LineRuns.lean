import Mathlib.Data.List.SplitBy

namespace SyntaxStream.Text

-- The newlines of a text and the longest runs of other characters, in order.
def lineRuns (text : String) : List String :=
  (text.toList.splitBy fun c d => c != '\n' && d != '\n').map String.ofList

def IsLineRun (piece : String) : Prop :=
  piece = "\n" ∨ (piece ≠ "" ∧ '\n' ∉ piece.toList)

variable {piece next : String}

theorem IsLineRun.toList_ne_nil (h : IsLineRun piece) : piece.toList ≠ [] := by
  rcases h with rfl | ⟨hne, -⟩
  · decide
  · simpa using hne

theorem IsLineRun.eq_newline (h : IsLineRun piece) (hm : '\n' ∈ piece.toList) : piece = "\n" :=
  h.resolve_right fun hfree => hfree.2 hm

theorem IsLineRun.isChain (h : IsLineRun piece) :
    piece.toList.IsChain fun c d => (c != '\n' && d != '\n') = true := by
  rcases h with rfl | ⟨-, hfree⟩
  · exact .singleton _
  · apply List.Pairwise.isChain
    apply List.pairwise_of_forall_mem_list
    intro c hc d hd
    have hcn : c ≠ '\n' := fun he => hfree (he ▸ hc)
    have hdn : d ≠ '\n' := fun he => hfree (he ▸ hd)
    simp [hcn, hdn]

-- A newline joins neither what comes before it nor what comes after it.
theorem IsLineRun.border (hp : IsLineRun piece) (hn : IsLineRun next)
    (h : piece = "\n" ∨ next = "\n") :
    ∃ hp hn, (piece.toList.getLast hp != '\n' && next.toList.head hn != '\n') = false := by
  refine ⟨hp.toList_ne_nil, hn.toList_ne_nil, ?_⟩
  rcases h with rfl | rfl
  · rfl
  · exact Bool.and_false _

-- The runs of a text are the only pieces of it that are such runs, if of two that follow each other
-- one is a newline.
theorem lineRuns_eq {text : String} {pieces : List String} (hj : String.join pieces = text)
    (hr : ∀ piece ∈ pieces, IsLineRun piece)
    (hc : pieces.IsChain fun piece next => piece = "\n" ∨ next = "\n") :
    lineRuns text = pieces := by
  have hsplit : (text.toList.splitBy fun c d => c != '\n' && d != '\n') =
      pieces.map String.toList := by
    rw [List.splitBy_eq_iff, ← hj, String.toList_join, List.flatMap_def]
    refine ⟨rfl, ?_, ?_, ?_⟩
    · rw [List.mem_map]
      rintro ⟨piece, hm, hnil⟩
      exact (hr piece hm).toList_ne_nil hnil
    · rw [List.forall_mem_map]
      exact fun piece hm => (hr piece hm).isChain
    · rw [List.isChain_map]
      exact hc.imp_of_mem_imp fun piece next hp hn h => (hr piece hp).border (hr next hn) h
  rw [lineRuns, hsplit, List.map_map]
  simp [Function.comp_def]

end SyntaxStream.Text
