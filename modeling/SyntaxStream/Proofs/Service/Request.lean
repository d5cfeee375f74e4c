import SyntaxStream.Proofs.Wire.Request
import SyntaxStream.Service

namespace SyntaxStream

open Json (Document Fault)

variable {request : HighlightRequest}

namespace Remote

-- The two messages that carry a request: within their address, or as their body.
def getMessage [Codec] (r : HighlightRequest) : Http.Request :=
  ⟨.get, highlightPath, some (Codec.writeForm r.queryPairs), none, ""⟩

def postMessage [Codec] (r : HighlightRequest) : Http.Request :=
  ⟨.post, highlightPath, none, some "application/json", Codec.writeJson r.toJson⟩

theorem encode_eq [Codec] (r : HighlightRequest) :
    encode r = if r.method = .post then postMessage r else getMessage r := rfl

end Remote

namespace Service

-- The query that the parameters of a request make up.
def queryOf [Codec] (r : HighlightRequest) : Query :=
  ⟨some r.code, some r.lang, some (Codec.writeJson r.theme.toJson),
    some (Codec.writeJson r.options.toJson)⟩

theorem ofPairs_queryPairs [Codec] (r : HighlightRequest) :
    Query.ofPairs r.queryPairs = some (queryOf r) := rfl

theorem toRequest_queryOf [Codec] [Codec.ReadsBack] (h : request.options.HasWords) :
    (queryOf request).toRequest = .ok request := by
  have htheme := ThemeSelection.decode_writeJson request.theme
  have hoptions := HighlightOptions.decode_writeJson h
  simp only [queryOf, Query.toRequest, htheme, hoptions]
  rfl

theorem readQuery_getMessage [Codec] [Codec.ReadsBack] (h : request.options.HasWords) :
    readQuery (Remote.getMessage request) = .ok request := by
  have hform := Codec.ReadsBack.form request.queryPairs
  simp only [readQuery, Remote.getMessage, Option.getD_some, hform, ofPairs_queryPairs,
    toRequest_queryOf h]
  rfl

theorem isJson_applicationJson :
    (Http.MediaType.parse? "application/json").map Http.MediaType.isJson = some true := by
  decide +kernel

theorem readBody_postMessage [Codec] [Codec.ReadsBack] (h : request.options.HasWords) :
    readBody (Remote.postMessage request) = .ok request := by
  have hbody := HighlightRequest.decode_writeJson h
  rw [readBody]
  simp only [Remote.postMessage, Option.bind_some, isJson_applicationJson, hbody]
  rfl

theorem readRequest_get [Codec] {r : Http.Request} (hp : r.path = Remote.highlightPath)
    (hm : r.method = .get) : readRequest r = readQuery r := by
  rw [readRequest, hp, bne_self_eq_false, hm]
  rfl

theorem readRequest_post [Codec] {r : Http.Request} (hp : r.path = Remote.highlightPath)
    (hm : r.method = .post) : readRequest r = readBody r := by
  rw [readRequest, hp, bne_self_eq_false, hm]
  rfl

theorem readRequest_getMessage [Codec] [Codec.ReadsBack] (h : request.options.HasWords) :
    readRequest (Remote.getMessage request) = .ok request :=
  (readRequest_get rfl rfl).trans (readQuery_getMessage h)

theorem readRequest_postMessage [Codec] [Codec.ReadsBack] (h : request.options.HasWords) :
    readRequest (Remote.postMessage request) = .ok request :=
  (readRequest_post rfl rfl).trans (readBody_postMessage h)

-- Either message is read as the request it carries.
theorem readRequest_encode [Codec] [Codec.ReadsBack] (h : request.options.HasWords) :
    readRequest (Remote.encode request) = .ok request := by
  rw [Remote.encode_eq]
  split
  · exact readRequest_postMessage h
  · exact readRequest_getMessage h

-- A message in which a request is found is answered by what the highlighter says about it.
theorem handle_of_readRequest [Codec] [Diagnostics] {σ : Type} {message : Http.Request}
    (hr : readRequest message = .ok request) (hm : message.method ≠ .head)
    (parser : SyntaxParser σ) (library : ThemeLibrary) (h : LocalHighlighter) (s : σ) :
    handle parser library h message s =
      (report (h.highlight parser library request s).1,
        (h.highlight parser library request s).2) := by
  rw [handle, hr]
  simp only [hm, if_false]

end Service

end SyntaxStream
