import SyntaxStream.Error
import SyntaxStream.Http.Message
import SyntaxStream.Text.Percent
import SyntaxStream.Wire.Codec
import SyntaxStream.Wire.Request
import SyntaxStream.Wire.Result

namespace SyntaxStream

-- Something that is asked to highlight blocks and may fail. Its state is whatever it keeps.
structure Transport (τ : Type) where
  fetch : HighlightRequest → τ → Except HighlightError HighlightResult × τ

namespace HighlightRequest

-- From this length on, code is not sent within an address.
def postThreshold : Nat := 15 * 1024

def method (r : HighlightRequest) : Http.Method :=
  if postThreshold ≤ Text.componentLength r.code then .post else .get

-- The parameters of an address. The theme and the options are written as documents.
def queryPairs [Codec] (r : HighlightRequest) : List (String × String) :=
  [("code", r.code), ("lang", r.lang), ("theme", Codec.writeJson r.theme.toJson),
    ("options", Codec.writeJson r.options.toJson)]

end HighlightRequest

namespace Remote

def highlightPath : String := "/api/_mdc/highlight"

-- The address of the service, whether or not its base ends in slashes.
def url (endpoint : String) : String :=
  String.ofList (endpoint.toList.reverse.dropWhile (· == '/')).reverse ++ highlightPath

def encode [Codec] (r : HighlightRequest) : Http.Request :=
  if r.method = .post then
    ⟨.post, highlightPath, none, some "application/json", Codec.writeJson r.toJson⟩
  else
    ⟨.get, highlightPath, some (Codec.writeForm r.queryPairs), none, ""⟩

-- The result in an answer. A service that is not there counts as unavailable; any other trouble is
-- a failure of this request alone.
def decode [Codec] (response : Http.Response) : Except HighlightError HighlightResult :=
  if response.status == 404 then .error .unavailable
  else if !response.isSuccess then .error (.status response.status)
  else (Codec.decode HighlightResult.ofDocument response.body).mapError fun _ => .payload

def transport [Codec] {τ : Type} (exchange : Http.Request → τ → Option Http.Response × τ) :
    Transport τ where
  fetch r t :=
    match exchange (encode r) t with
    | (none, t) => (.error .transport, t)
    | (some response, t) => (decode response, t)

def unreachable [Codec] : Transport Unit := transport fun _ t => (none, t)

end Remote

end SyntaxStream
