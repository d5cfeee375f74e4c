import SyntaxStream.Plugin
import SyntaxStream.Proofs.Markdown.Events

namespace SyntaxStream.HighlightPlugin

open Markdown

variable {η : Type}

-- Results for blocks from a highlighter that is asked for one after the other. The states are those
-- in which it is asked.
structure Answered (highlighter : Highlighter η) (theme : ThemeSelection) (state : η)
    (blocks : List CodeBlock) (results : List (CodeBlock × HighlightResult)) : Prop where
  pairs : results.map Prod.fst = blocks
  answers : ∃ states : Nat → η, states 0 = state ∧
    ∀ (i : Nat) (block : CodeBlock), blocks[i]? = some block →
      ∃ result, results[i]? = some (block, result) ∧
        highlighter.resolve ⟨block.code, block.lang, theme, ⟨block.highlights, block.fenceMeta⟩⟩
          (states i) = (result, states (i + 1))

theorem answered_highlightBlocks (highlighter : Highlighter η) (plugin : HighlightPlugin)
    (blocks : List CodeBlock) (state : η) :
    Answered highlighter plugin.theme state blocks
      (highlightBlocks highlighter plugin blocks state).1 := by
  induction blocks generalizing state with
  | nil =>
    refine ⟨rfl, fun _ => state, rfl, ?_⟩
    intro i block hblock
    cases hblock
  | cons block rest ih =>
    let first := highlighter.resolve (plugin.request block) state
    obtain ⟨hpairs, states, hstart, hanswers⟩ := ih first.2
    refine ⟨congrArg (block :: ·) hpairs, fun i => i.casesOn state states, rfl, ?_⟩
    intro i asked hasked
    cases i with
    | zero =>
      obtain rfl := Option.some.inj hasked
      refine ⟨first.1, rfl, ?_⟩
      change first = (first.1, states 0)
      rw [hstart]
    | succ i => exact hanswers i asked hasked

-- A document is read and highlighted block by block. Nothing but what is relied on of its events is
-- used, and those that it is read as here are such events.
theorem blocks_read_and_answered (document : String) :
    (∀ events, ToldOf document events →
      List.Forall₂ (CodeBlock.Describes document) (fencedTexts events)
          (CodeBlock.ofEvents document events) ∧
        ∀ (η : Type) (highlighter : Highlighter η) (plugin : HighlightPlugin) (state : η),
          Answered highlighter plugin.theme state (CodeBlock.ofEvents document events)
            (highlightBlocks highlighter plugin (CodeBlock.ofEvents document events) state).1) ∧
    ToldOf document (events document) ∧
    ∀ (η : Type) (highlighter : Highlighter η) (plugin : HighlightPlugin) (state : η),
      Answered highlighter plugin.theme state (CodeBlock.ofEvents document (events document))
        (highlightMarkdown highlighter plugin document state).1 := by
  refine ⟨fun events h => ⟨CodeBlock.forall₂_describes h, ?_⟩, toldOf_events document, ?_⟩
  · intro η highlighter plugin state
    exact answered_highlightBlocks highlighter plugin _ state
  · intro η highlighter plugin state
    exact answered_highlightBlocks highlighter plugin _ state

-- Two blocks behind a letter of two bytes. The first one is indented and counts for nothing. The
-- highlighter keeps what it is asked for.
theorem blocks_read_and_answered_one_fenced :
    let document := "é\n\n    x\n\n~~~go {1,2}\ny\n~~~\n"
    let events : List Event :=
      [.other, .text "é", .other, .indented 8, .text "x\n", .codeEnd, .fenced 11 "go {1,2}",
        .text "y\n", .codeEnd]
    let block : CodeBlock := ⟨"go", some "{1,2}", "y", 5, [1]⟩
    let recorder : Highlighter (List HighlightRequest) :=
      ⟨fun request asked => (.plain request.code, asked ++ [request])⟩
    ToldOf document events ∧ CodeBlock.ofEvents document events = [block] ∧
      List.Forall₂ (CodeBlock.Describes document) [⟨11, "go {1,2}", "y\n"⟩] [block] ∧
      Answered recorder (.single "github-light") [] [block] [(block, .plain "y")] := by
  intro document events block recorder
  have htold : ToldOf document events := by
    refine ⟨rfl, ?_⟩
    decide
  have hblocks : CodeBlock.ofEvents document events = [block] := by decide +kernel
  obtain ⟨hdescribes, hanswered⟩ := (blocks_read_and_answered document).1 events htold
  have hrecorded := hanswered _ recorder ⟨.single "github-light"⟩ []
  rw [hblocks] at hdescribes hrecorded
  exact ⟨htold, hblocks, hdescribes, hrecorded⟩

end SyntaxStream.HighlightPlugin
