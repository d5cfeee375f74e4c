import SyntaxStream.Cli.Run
import SyntaxStream.Proofs.Chunk
import SyntaxStream.Proofs.Highlight.Cache
import SyntaxStream.Proofs.Session.Run
import SyntaxStream.Proofs.Transform.Shown

namespace SyntaxStream

-- The operation that brings about a call.
def Call.operation {ρ : Type} : Call → Operation ρ
  | push chunk => .feed chunk
  | flush => .finish

namespace Session

variable {σ ρ : Type} [ChunkSource ρ] {parser : SyntaxParser σ} {library : ThemeLibrary}
  {session : Session} {t : Transform}

-- What the records of a run have given, with all else that the run has led to.
def given (run : List (Record ρ) × Session × σ) : List Batch × Session × σ :=
  (run.1.flatMap (·.answer.emitted), run.2)

end Session

namespace Cli

open Session

variable {σ τ : Type} {parser : SyntaxParser σ}

end Cli

end SyntaxStream
