import SyntaxStream.Yaml.Token

namespace SyntaxStream.Yaml

-- A token that becomes a key when a colon follows it.
structure KeyCandidate where
  -- its place among the tokens
  number : Nat
  line : Nat
  column : Nat
  index : Nat
  -- whether nothing else can stand there
  required : Bool
deriving Repr, DecidableEq, Inhabited

structure Lexer where
  place : Place
  tokens : List Token
  -- the columns of the open block collections, innermost first
  indents : List Nat
  -- the candidate within the innermost brackets
  candidate : Option KeyCandidate
  -- the candidates around each of the open brackets, innermost first
  outer : List (Option KeyCandidate)
  -- whether a token may become a key without being marked as one
  keyAllowed : Bool
deriving Repr, DecidableEq, Inhabited

namespace Lexer

def start (cs : List Char) : Lexer where
  place := .start cs
  tokens := []
  indents := []
  candidate := none
  outer := []
  keyAllowed := true

def inFlow (l : Lexer) : Bool := !l.outer.isEmpty

-- The column of the innermost block collection. Without one it is less than any column.
def indent (l : Lexer) : Int :=
  match l.indents with
  | [] => -1
  | n :: _ => n

def emit (l : Lexer) (token : Token) : Lexer := { l with tokens := l.tokens ++ [token] }

-- Emits a token that consists of the next characters.
def take (l : Lexer) (token : Token) (count : Nat) : Lexer :=
  { l.emit token with place := l.place.skip count }

def allowKey (l : Lexer) (allowed : Bool) : Lexer := { l with keyAllowed := allowed }

-- Passes over blanks, comments and line ends. Tabs count as blanks where they cannot be taken for
-- indentation.
def passGap (fuel : Nat) (l : Lexer) : Lexer :=
  match fuel with
  | 0 => l
  | fuel + 1 =>
    let p := if l.place.index == 0 && l.place.rest.head? == some '\ufeff' then l.place.skip 1
      else l.place
    let p := p.skipWhile fun c => c == ' ' || (c == '\t' && (l.inFlow || !l.keyAllowed))
    let p := if p.rest.head? == some '#' then p.skipLine else p
    if p.rest.head?.any isBreak then
      passGap fuel { l with place := p.skipBreak, keyAllowed := l.keyAllowed || !l.inFlow }
    else { l with place := p }

-- Keys stand on one line and have a limited length.
def isStale (p : Place) (k : KeyCandidate) : Bool :=
  k.line < p.line || k.index + 1024 < p.index

-- Gives up a candidate, unless it has to be a key.
def forget? : Option KeyCandidate → Option (Option KeyCandidate)
  | some k => if k.required then none else some none
  | none => some none

-- Gives up the candidates that are too far away.
def dropStale? (l : Lexer) : Option Lexer := do
  let check (k : Option KeyCandidate) :=
    if k.any (isStale l.place) then forget? k else some k
  return { l with outer := ← l.outer.mapM check, candidate := ← check l.candidate }

def dropCandidate? (l : Lexer) : Option Lexer := do
  return { l with candidate := ← forget? l.candidate }

def markCandidate? (l : Lexer) : Option Lexer :=
  if l.keyAllowed then do
    let l ← l.dropCandidate?
    let p := l.place
    let required := !l.inFlow && l.indent == p.column
    return { l with candidate := some ⟨l.tokens.length, p.line, p.column, p.index, required⟩ }
  else some l

-- Ends the block collections that lie deeper than a column.
def closeBlocks (column : Int) (l : Lexer) : Lexer :=
  if l.inFlow then l
  else
    let ended := l.indents.takeWhile fun (n : Nat) => column < n
    { l with
      indents := l.indents.drop ended.length
      tokens := l.tokens ++ List.replicate ended.length .blockEnd }

-- Opens a block collection at a column if that lies deeper than the innermost one. Its token
-- stands before the token of a certain number.
def openBlock (column number : Nat) (token : Token) (l : Lexer) : Lexer :=
  if !l.inFlow && l.indent < column then
    { l with indents := column :: l.indents, tokens := l.tokens.insertIdx number token }
  else l

def openBlockHere? (token : Token) (l : Lexer) : Option Lexer :=
  if l.inFlow then some l
  else if l.keyAllowed then some (l.openBlock l.place.column l.tokens.length token)
  else none

-- Where the next token stands outside of all block collections.
def outermost? (l : Lexer) : Option Lexer := do
  return (← (l.closeBlocks (-1)).dropCandidate?).allowKey false

def openBracket? (token : Token) (l : Lexer) : Option Lexer := do
  let l ← l.markCandidate?
  return { l.take token 1 with
    candidate := none, outer := l.candidate :: l.outer, keyAllowed := true }

def closeBracket? (token : Token) (l : Lexer) : Option Lexer := do
  let l := (← l.dropCandidate?).take token 1
  return match l.outer with
    | candidate :: outer => { l with candidate, outer, keyAllowed := false }
    | [] => l.allowKey false

def comma? (l : Lexer) : Option Lexer := do
  return ((← l.dropCandidate?).allowKey true).take .flowEntry 1

def hyphen? (l : Lexer) : Option Lexer := do
  let l ← (← l.openBlockHere? .blockSequenceStart).dropCandidate?
  return (l.allowKey true).take .blockEntry 1

def questionMark? (l : Lexer) : Option Lexer := do
  let l ← (← l.openBlockHere? .blockMappingStart).dropCandidate?
  return (l.allowKey !l.inFlow).take .key 1

-- A colon makes a key of the candidate. The tokens for this are put before it.
def colon? (l : Lexer) : Option Lexer :=
  match l.candidate with
  | some k =>
    let l := { l with tokens := l.tokens.insertIdx k.number .key, candidate := none }
    some (((l.openBlock k.column k.number .blockMappingStart).allowKey false).take .value 1)
  | none => do
    let l ← l.openBlockHere? .blockMappingStart
    return (l.allowKey !l.inFlow).take .value 1

def content? (l : Lexer) (read : Place → Option (Token × Place)) : Option Lexer := do
  let l ← l.markCandidate?
  let (token, place) ← read l.place
  return ({ l with place }.emit token).allowKey false

def quoted? (single : Bool) (p : Place) : Option (Token × Place) := do
  let (text, p) ← Quoted.read? single (p.rest.length + 1) [] (p.skip 1)
  return (.scalar text (if single then .singleQuoted else .doubleQuoted), p)

def plain? (l : Lexer) : Option Lexer := do
  let l ← l.markCandidate?
  let p := l.place
  let (text, lineEnded, place) ←
    Plain.read? l.inFlow (l.indent + 1).toNat (p.rest.length + 1) [] .none p
  return ({ l with place }.emit (.scalar text .plain)).allowKey lineEnded

def block? (isFolded : Bool) (l : Lexer) : Option Lexer := do
  let l ← l.dropCandidate?
  let (text, place) ← Block.read? isFolded l.indent (l.place.skip 1)
  return ({ l with place }.emit (.scalar text (if isFolded then .folded else .literal))).allowKey true

def directive? (l : Lexer) : Option Lexer := do
  let l ← l.outermost?
  let (token, place) ← Directive.read? (l.place.skip 1)
  return { l with place }.emit token

def atPlain (inFlow : Bool) : List Char → Bool
  | [] => false
  | c :: rest =>
    if c == '-' then !rest.head?.any Yaml.isBlank
    else if c == '?' || c == ':' then !inFlow && !blankAhead rest
    else !(isBlank c || isBreak c || ",[]\x7b\x7d#&*!|>'\"%@\x60".toList.contains c)

def next? (l : Lexer) : Option Lexer :=
  let p := l.place
  if p.atDocumentMark then do
    let l ← l.outermost?
    return l.take (if p.rest.head? == some '-' then .documentStart else .documentEnd) 3
  else match p.rest with
    | [] => some l
    | c :: rest =>
      let separated := l.inFlow || blankAhead rest
      if c == '%' && p.column == 0 then l.directive?
      else if c == '[' then l.openBracket? .flowSequenceStart
      else if c == '\x7b' then l.openBracket? .flowMappingStart
      else if c == ']' then l.closeBracket? .flowSequenceEnd
      else if c == '\x7d' then l.closeBracket? .flowMappingEnd
      else if c == ',' then l.comma?
      else if c == '-' && blankAhead rest then l.hyphen?
      else if c == '?' && separated then l.questionMark?
      else if c == ':' && separated then l.colon?
      else if c == '*' then
        l.content? fun p => (readName? (p.skip 1)).map fun (name, p) => (.alias name, p)
      else if c == '&' then
        l.content? fun p => (readName? (p.skip 1)).map fun (name, p) => (.anchor name, p)
      else if c == '!' then l.content? (Tag.read? l.inFlow)
      else if c == '|' && !l.inFlow then l.block? false
      else if c == '>' && !l.inFlow then l.block? true
      else if c == '\'' then l.content? (quoted? true)
      else if c == '"' then l.content? (quoted? false)
      else if atPlain l.inFlow p.rest then l.plain?
      else none

def run? (fuel : Nat) (l : Lexer) : Option (List Token) :=
  match fuel with
  | 0 => none
  | fuel + 1 => do
    let l ← (l.passGap (l.place.rest.length + 1)).dropStale?
    let l := l.closeBlocks l.place.column
    if l.place.rest.isEmpty then return (← l.outermost?).tokens
    else run? fuel (← l.next?)

end Lexer

-- The tokens of a text, none if it cannot be divided into tokens.
def tokens? (text : String) : Option (List Token) :=
  let cs := match text.toList with
    | '\ufeff' :: rest => rest
    | cs => cs
  if cs.all isAllowed then (Lexer.start cs).run? (cs.length + 1) else none

end SyntaxStream.Yaml
