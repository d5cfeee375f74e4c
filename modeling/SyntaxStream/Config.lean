import SyntaxStream.Theme.Basic

namespace SyntaxStream

-- The settings that persist across runs.
structure Config where
  -- the theme of sessions and requests that name none
  theme : String
  -- the language of sessions that name none
  language : String
  allowRecalls : Bool
  endpoint : String
  listen : String
  -- how long a request to the remote service may take
  requestTimeoutSecs : Nat
deriving Repr, DecidableEq

namespace Config

def defaults : Config where
  theme := Theme.fallbackId
  language := "text"
  allowRecalls := true
  endpoint := "http://127.0.0.1:3000"
  listen := "127.0.0.1:3000"
  requestTimeoutSecs := 30

instance : Inhabited Config := ⟨defaults⟩

end Config

end SyntaxStream
