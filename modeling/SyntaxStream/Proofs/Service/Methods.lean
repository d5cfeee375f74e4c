import SyntaxStream.Proofs.Highlight.Cache
import SyntaxStream.Proofs.Service.Request

namespace SyntaxStream.Service

open Json (Document)

variable {σ : Type} {parser : SyntaxParser σ} {library : ThemeLibrary} {server : LocalHighlighter}
  {request : HighlightRequest} {s : σ}

end SyntaxStream.Service
