namespace SyntaxStream.Text

-- The value of a digit in a base of at most 16; letters count in either case.
def digitIn? (base : Nat) (c : Char) : Option Nat :=
  let value : Option Nat :=
    if '0' ≤ c ∧ c ≤ '9' then some (c.toNat - '0'.toNat)
    else if 'a' ≤ c ∧ c ≤ 'f' then some (c.toNat - 'a'.toNat + 10)
    else if 'A' ≤ c ∧ c ≤ 'F' then some (c.toNat - 'A'.toNat + 10)
    else none
  value.filter (· < base)

-- The value of a sequence of digits, none when one of them is no digit of the base.
def digits? (base : Nat) (cs : List Char) : Option Nat :=
  cs.foldlM (fun n c => (digitIn? base c).map (base * n + ·)) 0

-- A numeral below a bound: an optional plus sign and at least one digit of the base.
def naturalIn? (base bound : Nat) (cs : List Char) : Option Nat :=
  let body := match cs with
    | '+' :: rest => rest
    | _ => cs
  if body.isEmpty then none else (digits? base body).filter (· < bound)

-- Counts and sizes are numbers of 64 bits.
def wordBound : Nat := 18446744073709551616

def natural? (cs : List Char) : Option Nat :=
  naturalIn? 10 wordBound cs

end SyntaxStream.Text
