namespace SyntaxStream.Http

structure MediaType where
  type : String
  subtype : String
  suffix : Option String
deriving Repr, DecidableEq, Inhabited

namespace MediaType

def isTokenChar (c : Char) : Bool :=
  c.isAlphanum || "!#$%&'*+-.^_|~".toList.contains c || c.toNat == 0x60

def isQuotedChar (c : Char) : Bool := 0x1F < c.toNat && c.toNat != 0x7F

-- The end of a value in quotes, given what follows its first character. A quote ends it.
def skipQuoted : List Char → Option (List Char)
  | [] => none
  | '"' :: rest => some rest
  | c :: rest => if isQuotedChar c then skipQuoted rest else none

def skipValue (cs : List Char) : Option (List Char) :=
  match cs with
  | '"' :: first :: rest =>
    if isQuotedChar first then
      (skipQuoted rest).bind fun rest =>
        match rest.dropWhile (· == ' ') with
        | [] => some []
        | ';' :: rest => some rest
        | _ => none
    else none
  | ['"'] => none
  | ';' :: _ => none
  | _ =>
    match cs.dropWhile isTokenChar with
    | [] => some []
    | ';' :: rest => some rest
    | _ => none

-- Whether a text is a list of parameters. Each has a name and a value.
def areParameters (cs : List Char) : Bool :=
  match _h : cs.dropWhile (· == ' ') with
  | [] => true
  | start =>
    match start.dropWhile isTokenChar with
    | '=' :: rest =>
      if isTokenChar (start.headD '=') then
        match skipValue rest with
        | none => false
        | some rest => if rest.length < cs.length then areParameters rest else false
      else false
    | _ => false
termination_by cs.length

-- Reads a media type. Case makes no difference.
def parse? (text : String) : Option MediaType :=
  let cs := text.toList.map Char.toLower
  let type := cs.takeWhile isTokenChar
  match cs.dropWhile isTokenChar with
  | '/' :: rest =>
    let essence := rest.takeWhile isTokenChar
    let complete : Bool := match rest.dropWhile isTokenChar with
      | [] => true
      | ';' :: parameters => !essence.isEmpty && areParameters parameters
      | _ => false
    if type.isEmpty || !complete then none
    else
      let ending := (essence.reverse.takeWhile (· != '+')).reverse
      let start := essence.take (essence.length - ending.length - 1)
      if ending.length < essence.length && !start.isEmpty then
        some ⟨String.ofList type, String.ofList start, some (String.ofList ending)⟩
      else
        some ⟨String.ofList type, String.ofList essence, none⟩
  | _ => none

def isJson (m : MediaType) : Bool :=
  m.type == "application" && (m.subtype == "json" || m.suffix == some "json")

end MediaType

end SyntaxStream.Http
