import SyntaxStream.Highlight.Local
import SyntaxStream.Highlight.Remote
import SyntaxStream.Http.MediaType

namespace SyntaxStream.Service

open Json (Fault)

-- The parameters of an address as they are given. The theme and the options are documents.
structure Query where
  code : Option String
  lang : Option String
  theme : Option String
  options : Option String
deriving Repr, DecidableEq, Inhabited

namespace Query

def blank : Query := ⟨none, none, none, none⟩

-- Takes a parameter, which must not come twice. Unknown ones are passed over.
def add (q : Query) : String × String → Option Query
  | ("code", value) => if q.code.isSome then none else some { q with code := some value }
  | ("lang", value) => if q.lang.isSome then none else some { q with lang := some value }
  | ("theme", value) => if q.theme.isSome then none else some { q with theme := some value }
  | ("options", value) => if q.options.isSome then none else some { q with options := some value }
  | _ => some q

def ofPairs (pairs : List (String × String)) : Option Query :=
  pairs.foldlM add blank

-- The request that the parameters make up, unless one of the documents cannot be read.
def toRequest [Codec] (q : Query) : Except Fault HighlightRequest := do
  let theme ← match q.theme with
    | some text => Codec.decode ThemeSelection.ofDocument text
    | none => pure .unspecified
  let options ← match q.options with
    | some text => Codec.decode HighlightOptions.ofDocument text
    | none => pure .none
  return { code := q.code.getD "", lang := q.lang.getD "", theme, options }

end Query

def allowedMethods : String := "GET,HEAD,POST"

def errorResponse [Codec] (status : Nat) (message : String) : Http.Response :=
  ⟨status, none, Codec.writeJson (.object [("error", .string message)])⟩

-- What the highlighter says, as an answer.
def report [Codec] [Diagnostics] : Except HighlightError HighlightResult → Http.Response
  | .ok result => ⟨200, none, Codec.writeJson result.toJson⟩
  | .error reason => errorResponse 500 reason.message

-- A refusal in words that do not matter.
def refusal (status : Nat) : Http.Response := ⟨status, none, "refused"⟩

-- The request within a message that asks by its address, or the answer if there is none.
def readQuery [Codec] (r : Http.Request) : Except Http.Response HighlightRequest := do
  let some query := Query.ofPairs (Codec.readForm (r.query.getD ""))
    | throw (refusal 400)
  query.toRequest.mapError fun _ => errorResponse 400 "invalid JSON parameter"

-- The request within a message that brings it along. What is no document is told from what is
-- another document than a request.
def readBody [Codec] (r : Http.Request) : Except Http.Response HighlightRequest := do
  unless ((r.contentType.bind Http.MediaType.parse?).map Http.MediaType.isJson).getD false do
    throw (refusal 415)
  (Codec.decode HighlightRequest.ofDocument r.body).mapError fun
    | .malformed => refusal 400
    | .mismatch => refusal 422

def readRequest [Codec] (r : Http.Request) : Except Http.Response HighlightRequest :=
  if r.path != Remote.highlightPath then .error (.bare 404)
  else match r.method with
    | .get => readQuery r
    | .head => readQuery r
    | .post => readBody r
    | .other _ => .error { Http.Response.bare 405 with allow := some allowedMethods }

variable {σ : Type}

-- Answers a message. An answer to a question for the head alone has no body.
def handle [Codec] [Diagnostics] (parser : SyntaxParser σ) (library : ThemeLibrary)
    (h : LocalHighlighter) (r : Http.Request) (s : σ) : Http.Response × LocalHighlighter × σ :=
  let (response, h, s) := match readRequest r with
    | .error response => (response, h, s)
    | .ok request =>
      let (result, h, s) := h.highlight parser library request s
      (report result, h, s)
  (if r.method = .head then { response with body := "" } else response, h, s)

end SyntaxStream.Service
