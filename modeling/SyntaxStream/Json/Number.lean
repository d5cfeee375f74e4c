import SyntaxStream.Decimal.Shortest

namespace SyntaxStream.Json

-- A number of a document: an integer of 64 bits, or a floating-point number by its bits.
inductive Number where
  | integer (n : Int)
  | float (bits : UInt64)
deriving Repr, DecidableEq, Inhabited

namespace Number

def isDigit (c : Char) : Bool := '0' ≤ c && c ≤ '9'

def wordMax : Nat := 18446744073709551615

-- Powers of ten from here on are no floating-point numbers.
def powerLimit : Nat := 309

def power (n : Nat) : Float := Float.ofScientific 1 false n

-- A significand scaled by a power of ten, in floating-point steps; none if it grows too large.
def scale (significand : Float) (exponent : Int) : Nat → Option Float
  | 0 => some significand
  | fuel + 1 =>
    if exponent.natAbs < powerLimit then
      if 0 ≤ exponent then
        let x := significand * power exponent.natAbs
        if x.isInf then none else some x
      else
        some (significand / power exponent.natAbs)
    else if significand == 0 then some significand
    else if 0 ≤ exponent then none
    else scale (significand / power 308) (exponent + 308) fuel

-- The value of a numeral with a fraction or an exponent, or too large for an integer.
def ofParts (negative : Bool) (significand : Nat) (exponent : Int) : Option Number :=
  (scale significand.toUInt64.toFloat exponent (exponent.natAbs / 308 + 2)).map fun x =>
    .float (if negative then -x else x).toBits

-- The digits that still fit a word, and how many digits follow them.
def accumulate (n : Nat) : List Char → Nat × List Char
  | [] => (n, [])
  | c :: cs =>
    let n' := 10 * n + (c.toNat - '0'.toNat)
    if wordMax < n' then (n, c :: cs) else accumulate n' cs

-- The value of a numeral by its parts: the digits before the point, the digits after it if there
-- is one, and the sign and digits of the exponent if there is one. None if it is too large.
def ofNumeral (negative : Bool) (whole : List Char) (fraction : Option (List Char))
    (exponent : Option (Bool × List Char)) : Option Number :=
  let (significand, skipped) := accumulate 0 whole
  if skipped.isEmpty && fraction.isNone && exponent.isNone then
    if !negative then some (.integer significand)
    else if 0 < significand && significand ≤ Nat.pow 2 63 then some (.integer (-significand))
    else ofParts true significand 0
  else
    -- once a digit does not fit, no later digit counts
    let (significand, used) :=
      match fraction with
      | none => (significand, 0)
      | some digits =>
        let (n, rest) := accumulate significand digits
        (n, digits.length - rest.length)
    let start : Int := skipped.length - used
    match exponent with
    | none => ofParts negative significand start
    | some (down, digits) =>
      let e := digits.foldl (fun n c => 10 * n + (c.toNat - '0'.toNat)) 0
      if Nat.pow 2 31 ≤ e then
        if significand != 0 && !down then none
        else some (.float (if negative then (-0.0 : Float) else 0.0).toBits)
      else
        let total := if down then start - e else start + e
        ofParts negative significand total

def takeDigits (cs : List Char) : List Char × List Char :=
  (cs.takeWhile isDigit, cs.dropWhile isDigit)

-- What a numeral at the start of a text comes to: nothing readable; or its value, none if it is
-- too large, and the rest of the text.
def read (cs : List Char) : Option (Option Number × List Char) := do
  let (negative, cs) := match cs with
    | '-' :: rest => (true, rest)
    | _ => (false, cs)
  let (whole, cs) := takeDigits cs
  guard !whole.isEmpty
  guard (whole.length == 1 || whole.head? != some '0')
  let (fraction, cs) ← match cs with
    | '.' :: rest =>
      let (digits, rest) := takeDigits rest
      if digits.isEmpty then none else some (some digits, rest)
    | _ => some (none, cs)
  let (exponent, cs) ← match cs with
    | c :: rest =>
      if c == 'e' || c == 'E' then
        let (down, rest) := match rest with
          | '-' :: rest => (true, rest)
          | '+' :: rest => (false, rest)
          | _ => (false, rest)
        let (digits, rest) := takeDigits rest
        if digits.isEmpty then none else some (some (down, digits), rest)
      else some (none, cs)
    | [] => some (none, cs)
  return (ofNumeral negative whole fraction exponent, cs)

-- Floating-point numbers are positional from 0.00001 up to below 10 to the power of 16, and have
-- an exponent with its sign otherwise.
def smallestPositional : Int := -5
def largestPositional : Int := 15

def renderScientific (x : Decimal.Scientific) : String :=
  let digits := (Nat.toDigits 10 x.digits)
  let lead : Int := x.exponent + digits.length - 1
  let zeros (n : Nat) := List.replicate n '0'
  String.ofList <|
    if smallestPositional ≤ lead && lead ≤ largestPositional then
      if lead < 0 then
        '0' :: '.' :: (zeros (-lead - 1).toNat ++ digits)
      else if 0 ≤ x.exponent then
        digits ++ zeros x.exponent.toNat ++ ['.', '0']
      else
        digits.take (lead + 1).toNat ++ '.' :: digits.drop (lead + 1).toNat
    else
      let mantissa := match digits with
        | [d] => [d]
        | d :: rest => d :: '.' :: rest
        | [] => []
      mantissa ++ 'e' :: (if lead < 0 then '-' else '+') :: Nat.toDigits 10 lead.natAbs

def render : Number → String
  | integer n => toString n
  | float bits =>
    let magnitude := bits.toNat % Nat.pow 2 63
    let text := if magnitude == 0 then "0.0" else renderScientific (Decimal.shortest magnitude)
    if Nat.pow 2 63 ≤ bits.toNat then "-" ++ text else text

end Number

end SyntaxStream.Json
