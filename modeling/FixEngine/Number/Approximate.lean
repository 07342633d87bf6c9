import FixEngine.Number.Decimal
import FixEngine.Number.Shortest

/-!
# Binary approximations of decimals

Application code may hold a decimal as a 64-bit binary number.  Nothing on the
wire passes through this module.
-/

namespace FixEngine

namespace Shortest

/-- The text of a 64-bit binary number: the fewest digits that read back, in
positional notation. -/
def text (x : Float) : String :=
  let bits := x.toBits.toNat
  let sign := if bits / Nat.pow 2 63 = 1 then "-" else ""
  let biased : Nat := bits / Nat.pow 2 52 % Nat.pow 2 11
  let fraction := bits % Nat.pow 2 52
  if biased = 2047 then (if fraction = 0 then sign ++ "inf" else "NaN")
  else if biased = 0 ∧ fraction = 0 then sign ++ "0"
  else
    let interval :=
      if biased = 0 then Interval.ofBinary fraction (-1074) false
      else
        Interval.ofBinary (Nat.pow 2 52 + fraction) (Int.ofNat biased - 1075)
          (fraction = 0 && biased != 1)
    sign ++ String.ofList interval.shortest.positional

end Shortest

namespace Decimal

/-- `base ^ n` by repeated squaring of the base, from the lowest bit of the
exponent up.  The order of the multiplications fixes the rounding. -/
def squaringPower (n : Nat) (base result : Float) : Float :=
  if n ≤ 1 then (if n = 1 then result * base else result)
  else squaringPower (n / 2) (base * base) (if n % 2 = 1 then result * base else result)
termination_by n

/-- The power of ten as a binary number. -/
def powerOfTen (n : UInt8) : Float :=
  squaringPower n.toNat 10.0 1.0

/-- The nearest binary number to the scaled integer, divided by the power of
ten. -/
def toFloat (d : Decimal) : Float :=
  d.scaled.toFloat / powerOfTen d.scale

/-- The bound `2 ^ 63` of the scaled range as a binary number. -/
def scaledBound : Float := 9223372036854775808.0

/-- Rounds to a number of decimal places, a half going away from zero. -/
def ofFloat (x : Float) (places : UInt8) : Except NumericFault Decimal :=
  let scaled := (x * powerOfTen places).round
  if scaled.isFinite && scaled < scaledBound && -scaledBound ≤ scaled then
    .ok ⟨scaled.toInt64, places⟩
  else .error (.overflow (Shortest.text x))

end Decimal

end FixEngine
