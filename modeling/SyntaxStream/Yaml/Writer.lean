import SyntaxStream.Yaml.Typed

namespace SyntaxStream.Yaml.Writer

-- Whether a decimal number is small enough to have a floating-point number of 64 bits near it.
def isFinite (significand : Nat) (exponent : Int) : Bool :=
  let digits : Int := (Nat.toDigits 10 significand).length
  if significand == 0 || digits + exponent < 300 then true
  else if 310 < digits + exponent then false
  else
    let limit := Nat.pow 2 1024 - Nat.pow 2 970
    if 0 ≤ exponent then significand * Nat.pow 10 exponent.toNat < limit
    else significand < limit * Nat.pow 10 (-exponent).toNat

def exponent? : List Char → Option Int
  | [] => some 0
  | c :: rest =>
    if c == 'e' || c == 'E' then
      let (negative, digits) : Bool × List Char := match rest with
        | '-' :: digits => (true, digits)
        | '+' :: digits => (false, digits)
        | digits => (false, digits)
      if digits.isEmpty then none
      else (Text.digits? 10 digits).map fun n => if negative then -n else n
    else none

-- Whether a text is the notation of a finite floating-point number without a sign.
def isFloat (text : List Char) : Bool :=
  let whole := text.takeWhile Char.isDigit
  let rest := text.drop whole.length
  let (fraction, rest) : List Char × List Char := match rest with
    | '.' :: rest => (rest.takeWhile Char.isDigit, rest.dropWhile Char.isDigit)
    | rest => ([], rest)
  if whole.isEmpty && fraction.isEmpty then false
  else match Text.digits? 10 (whole ++ fraction), exponent? rest with
    | some significand, some exponent => isFinite significand (exponent - fraction.length)
    | _, _ => false

-- Whether a text is the notation of a negative integer of 128 bits in another base.
def isNegativeWithBase (text : List Char) : Bool :=
  let fits (base : Nat) (digits : List Char) : Bool :=
    !digits.isEmpty && (Text.digits? base digits).any (· ≤ Nat.pow 2 127)
  match text with
  | '-' :: '0' :: 'x' :: rest => fits 16 rest
  | '-' :: '0' :: 'o' :: rest => fits 8 rest
  | '-' :: '0' :: 'b' :: rest => fits 2 rest
  | _ => false

-- Whether a text is a number in one of its notations. Integers have at most 128 bits.
def isNumber (text : List Char) : Bool :=
  let body := match text with
    | '+' :: rest => rest
    | '-' :: rest => rest
    | _ => text
  (Scalar.natural? (Nat.pow 2 128) text).isSome || isNegativeWithBase text || isFloat body ||
    [".inf", ".Inf", ".INF"].any (·.toList == body) ||
    [".nan", ".NaN", ".NAN"].any (·.toList == text)

-- Whether a plain scalar of this text would be read as something else than text.
def isAmbiguous (text : List Char) : Bool :=
  text.isEmpty || Scalar.isNullWord text || (Scalar.boolWord? text).isSome || isNumber text

def isPrintable (c : Char) : Bool :=
  let n := c.toNat
  n == 0x0A || (0x20 ≤ n && n ≤ 0x7E) || (0xA0 ≤ n && n ≤ 0xFFFD && n != 0xFEFF) || 0x10000 ≤ n

-- Whether a line ends next to a blank within a text: the second of two characters follows the
-- first.
def hasPair (first second : Char → Bool) : List Char → Bool
  | a :: b :: rest => (first a && second b) || hasPair first second (b :: rest)
  | _ => false

def isSpace (c : Char) : Bool := c == ' '

def fitsSingleQuotes (text : List Char) : Bool :=
  text.all isPrintable && !hasPair isSpace isBreak text && !hasPair isBreak isSpace text

def fitsBlock (text : List Char) : Bool :=
  text.all isPrintable && !hasPair isSpace isBreak text && !text.getLast?.any isSpace

-- Whether a text that is not empty starts like something else than a plain scalar.
def startsOtherwise : List Char → Bool
  | [] => false
  | c :: rest =>
    "#,[]\x7b\x7d&*!|>'\"%@\x60".toList.contains c || ("-?:".toList.contains c && blankAhead rest)

-- Whether a colon or a number sign in a text would end a plain scalar.
def endsEarly (text : List Char) : Bool :=
  hasPair (fun c => isBlank c || isBreak c) (· == '#') text ||
    hasPair (· == ':') (fun c => isBlank c || isBreak c) text || text.getLast? == some ':'

def fitsPlain (text : List Char) : Bool :=
  fitsSingleQuotes text && !text.any isBreak && !text.head?.any isSpace &&
    !text.getLast?.any isSpace && !"---".toList.isPrefixOf text && !"...".toList.isPrefixOf text &&
    !startsOtherwise text && !endsEarly text

-- Puts two blanks before the text of every line that has some.
def indented (atStart : Bool) : List Char → List Char
  | [] => []
  | c :: rest =>
    if isBreak c then c :: indented true rest
    else (if atStart then [' ', ' '] else []) ++ c :: indented false rest

-- A quote within the quotes is doubled.
def singleQuoted (text : List Char) : List Char :=
  let doubled := text.flatMap fun c => if c == '\'' then [c, c] else [c]
  ['\''] ++ indented false doubled ++
    (if text.getLast?.any isBreak then [' ', ' '] else []) ++ ['\'']

def hex (width n : Nat) : List Char :=
  let digits := (Nat.toDigits 16 n).map Char.toUpper
  List.replicate (width - digits.length) '0' ++ digits

def escaped (c : Char) : List Char :=
  let n := c.toNat
  let short := [(0x00, '0'), (0x07, 'a'), (0x08, 'b'), (0x09, 't'), (0x0A, 'n'), (0x0B, 'v'),
    (0x0C, 'f'), (0x0D, 'r'), (0x1B, 'e'), (0x22, '"'), (0x5C, '\\'), (0x85, 'N'), (0x2028, 'L'),
    (0x2029, 'P')]
  '\\' :: match short.lookup n with
    | some letter => [letter]
    | none =>
      if n ≤ 0xFF then 'x' :: hex 2 n
      else if n ≤ 0xFFFF then 'u' :: hex 4 n
      else 'U' :: hex 8 n

def doubleQuoted (text : List Char) : List Char :=
  ['"'] ++ (text.flatMap fun c =>
    if !isPrintable c || isBreak c || c == '"' || c == '\\' then escaped c else [c]) ++ ['"']

-- The marks behind the sign of a block: the indentation where the text does not show it, and what
-- happens to the line ends after the text.
def blockMarks (text : List Char) : List Char :=
  let indentation := if text.head?.any fun c => isSpace c || isBreak c then ['2'] else []
  let chomping := match text.reverse with
    | [] => ['-']
    | last :: before =>
      if !isBreak last then ['-']
      else match before with
        | [] => ['+']
        | previous :: _ => if isBreak previous then ['+'] else []
  indentation ++ chomping

def text (s : String) : List Char :=
  let cs := s.toList
  if cs.contains '\n' then
    if fitsBlock cs then
      ['|'] ++ blockMarks cs ++ ['\n'] ++ indented true cs ++
        (if cs.getLast?.any isBreak then [] else ['\n'])
    else doubleQuoted cs ++ ['\n']
  else
    (if fitsPlain cs && !isAmbiguous cs then cs
    else if fitsSingleQuotes cs then singleQuoted cs
    else doubleQuoted cs) ++ ['\n']

inductive Value where
  | string (s : String)
  | bool (b : Bool)
  | natural (n : Nat)
deriving Repr, DecidableEq

def value : Value → List Char
  | .string s => text s
  | .bool b => (if b then "true" else "false").toList ++ ['\n']
  | .natural n => Nat.toDigits 10 n ++ ['\n']

-- A record, each of its fields on a line of its own. The names are plain words.
def record (fields : List (String × Value)) : String :=
  String.ofList (fields.flatMap fun (name, v) => name.toList ++ [':', ' '] ++ value v)

end SyntaxStream.Yaml.Writer
