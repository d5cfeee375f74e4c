namespace SyntaxStream.Decimal

-- A positive decimal number: its digits as a natural number without trailing zeros, times a power
-- of ten.
structure Scientific where
  digits : Nat
  exponent : Int
deriving Repr, DecidableEq

-- A positive binary fraction and the interval of real numbers that round to it, all in quarters
-- of its last place: the interval reaches from low to high, times two to the power of exponent.
structure Rounding where
  low : Nat
  value : Nat
  high : Nat
  exponent : Int
  -- whether the ends belong to the interval
  closed : Bool
deriving Repr

-- The numerator and denominator of n times two to the power of e.
def dyadic (n : Nat) (e : Int) : Nat × Nat :=
  if 0 ≤ e then (n * Nat.pow 2 e.toNat, 1) else (n, Nat.pow 2 (-e).toNat)

-- The numerator and denominator of n times ten to the power of e.
def decadic (n : Nat) (e : Int) : Nat × Nat :=
  if 0 ≤ e then (n * Nat.pow 10 e.toNat, 1) else (n, Nat.pow 10 (-e).toNat)

-- What a finite positive number of 64 bits stands for.
def Rounding.ofBits (bits : Nat) : Rounding :=
  let fraction := bits % Nat.pow 2 52
  let biased := bits / Nat.pow 2 52 % Nat.pow 2 11
  let significand := if biased == 0 then fraction else fraction + Nat.pow 2 52
  -- below a power of two the numbers lie twice as close
  let below := if fraction == 0 && biased > 1 then 1 else 2
  { low := 4 * significand - below
    value := 4 * significand
    high := 4 * significand + 2
    exponent := (max biased 1 : Nat) - 1077
    closed := significand % 2 == 0 }

def Rounding.contains (r : Rounding) (x : Nat × Nat) : Bool :=
  let (lowN, lowD) := dyadic r.low r.exponent
  let (highN, highD) := dyadic r.high r.exponent
  if r.closed then
    lowN * x.2 ≤ x.1 * lowD && x.1 * highD ≤ highN * x.2
  else
    lowN * x.2 < x.1 * lowD && x.1 * highD < highN * x.2

def distance (a b : Nat × Nat) : Nat :=
  let x := a.1 * b.2
  let y := b.1 * a.2
  (x - y) + (y - x)

-- The power of ten of the leading digit of a fraction.
def leadingPower (n d : Nat) : Int :=
  if d ≤ n then
    ((Nat.toDigits 10 (n / d)).length : Int) - 1
  else
    -((List.range 400).find? fun s => d ≤ n * Nat.pow 10 (s + 1)).elim 0 fun s => (s + 1 : Int)

def stripZeros (digits : Nat) (exponent : Int) : Nat → Scientific
  | 0 => ⟨digits, exponent⟩
  | fuel + 1 =>
    if digits % 10 == 0 then stripZeros (digits / 10) (exponent + 1) fuel else ⟨digits, exponent⟩

-- The neighbours of the value on the grid of a power of ten that lie in the interval, the nearer
-- one first; of two equally near ones the even one.
def onGrid? (r : Rounding) (power : Int) : Option Nat :=
  let v := dyadic r.value r.exponent
  let (stepN, stepD) := decadic 1 power
  let below := v.1 * stepD / (v.2 * stepN)
  let above := below + 1
  match r.contains (decadic below power), r.contains (decadic above power) with
  | true, true =>
    let toBelow := distance v (decadic below power)
    let toAbove := distance v (decadic above power)
    if toBelow < toAbove || (toBelow == toAbove && below % 2 == 0) then some below else some above
  | true, false => some below
  | false, true => some above
  | false, false => none

-- The shortest decimal number that rounds to a finite positive number of 64 bits, and of those
-- the nearest.
def shortest (bits : Nat) : Scientific :=
  let r := Rounding.ofBits bits
  let (n, d) := dyadic r.value r.exponent
  let lead := leadingPower n d
  let found := (List.range 17).findSome? fun (extra : Nat) =>
    let power : Int := lead - (extra : Nat)
    (onGrid? r power).map fun digits => (digits, power)
  match found with
  | some (digits, power) => stripZeros digits power 20
  | none => ⟨r.value, 0⟩

end SyntaxStream.Decimal
