/-!
# Shortest decimal digits of a binary number

A finite binary floating-point number is `mantissa * 2 ^ exponent`.  Every
decimal nearer to it than to its neighbours reads back as the same number.  Of
those decimals this module finds one with the fewest digits, and among them the
nearest, all in exact arithmetic over naturals.
-/

namespace FixEngine.Shortest

/-- A positive number `value / unit` with the bounds of what reads back as it. -/
structure Interval where
  low : Nat
  value : Nat
  high : Nat
  unit : Nat
  /-- The bounds themselves read back as the number. -/
  closed : Bool

/-- The digits `digits * 10 ^ exponent`. -/
structure Digits where
  digits : Nat
  exponent : Int
  deriving DecidableEq, Repr

/-- The interval of `mantissa * 2 ^ exponent`.  Below a power of two the next
smaller number is only half as far away. -/
def Interval.ofBinary (mantissa : Nat) (exponent : Int) (narrowBelow : Bool) : Interval :=
  let scale (n : Nat) : Nat := n * Nat.pow 2 (exponent - 2).toNat
  { low := scale (4 * mantissa - (if narrowBelow then 1 else 2))
    value := scale (4 * mantissa)
    high := scale (4 * mantissa + 2)
    unit := Nat.pow 2 (2 - exponent).toNat
    closed := mantissa % 2 = 0 }

/-- Whether `n * 10 ^ exponent` reads back as the number. -/
def Interval.contains (i : Interval) (n : Nat) (exponent : Int) : Bool :=
  let point := n * Nat.pow 10 exponent.toNat * i.unit
  let shrink := Nat.pow 10 (-exponent).toNat
  if i.closed then i.low * shrink ≤ point && point ≤ i.high * shrink
  else i.low * shrink < point && point < i.high * shrink

/-- The better of the two multiples of `10 ^ exponent` around the number, if
one of them reads back.  Of two equally near multiples the greater is taken. -/
def Interval.onGrid? (i : Interval) (exponent : Int) : Option Digits :=
  let num := i.value * Nat.pow 10 (-exponent).toNat
  let den := i.unit * Nat.pow 10 exponent.toNat
  let below := num / den
  let lowFits := below != 0 && i.contains below exponent
  let highFits := i.contains (below + 1) exponent
  let highNearer := 2 * (num % den) ≥ den
  if highFits && (highNearer || !lowFits) then some ⟨below + 1, exponent⟩
  else if lowFits then some ⟨below, exponent⟩
  else none

/-- The least `n < bound` with `p n`, or `bound`. -/
def leastBelow (p : Nat → Bool) (bound : Nat) : Nat :=
  ((List.range bound).find? p).getD bound

/-- The exponent of the first digit: the number is at least `10 ^ k` and less
than `10 ^ (k + 1)`. -/
def Interval.magnitude (i : Interval) : Int :=
  let whole := i.value / i.unit
  if whole ≠ 0 then (Nat.toDigits 10 whole).length - 1
  else -(leastBelow (fun k => i.value * Nat.pow 10 k ≥ i.unit) 400 : Nat)

/-- The shortest digits that read back.  The first grid tried is one place above
the first digit of the number: a number just below a power of ten may read back
from that power, which is a single digit there and would end in a zero on every
finer grid.  Seventeen digits always suffice for 53 bits. -/
def Interval.shortest (i : Interval) : Digits :=
  let top := i.magnitude
  ((List.range 18).findSome? fun (n : Nat) => i.onGrid? (top + 1 - n)).getD
    ⟨i.value / i.unit, 0⟩

/-- Positional notation without a point when there are no decimal places, and
never with an exponent. -/
def Digits.positional (d : Digits) : List Char :=
  let shown := Nat.toDigits 10 d.digits
  if 0 ≤ d.exponent then shown ++ List.replicate d.exponent.toNat '0'
  else
    let places := (-d.exponent).toNat
    if shown.length ≤ places then
      '0' :: '.' :: (List.replicate (places - shown.length) '0' ++ shown)
    else shown.take (shown.length - places) ++ '.' :: shown.drop (shown.length - places)

end FixEngine.Shortest
