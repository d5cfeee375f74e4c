namespace SyntaxStream.Http

inductive Method where
  | get
  | head
  | post
  | other (name : String)
deriving Repr, DecidableEq, Inhabited

namespace Method

def ofName : String → Method
  | "GET" => get
  | "HEAD" => head
  | "POST" => post
  | name => other name

def name : Method → String
  | get => "GET"
  | head => "HEAD"
  | post => "POST"
  | other name => name

end Method

-- A request as far as the service looks at it.
structure Request where
  method : Method
  path : String
  query : Option String
  contentType : Option String
  body : String
deriving Repr, DecidableEq, Inhabited

namespace Request

-- A path and its query in one text. What follows a number sign is not sent.
def splitTarget (target : String) : String × Option String :=
  let sent := target.toList.takeWhile (· != '#')
  let path := String.ofList (sent.takeWhile (· != '?'))
  match sent.dropWhile (· != '?') with
  | [] => (path, none)
  | _ :: query => (path, some (String.ofList query))

def target (r : Request) : String :=
  match r.query with
  | none => r.path
  | some query => r.path ++ "?" ++ query

end Request

structure Response where
  status : Nat
  allow : Option String
  body : String
deriving Repr, DecidableEq, Inhabited

namespace Response

def bare (status : Nat) : Response := ⟨status, none, ""⟩

def isSuccess (r : Response) : Bool := 200 ≤ r.status && r.status < 300

end Response

end SyntaxStream.Http
