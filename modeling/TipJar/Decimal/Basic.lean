import TipJar.Text.Digit

/-! Decimal numbers as they are written.

A number keeps the digits and the exponent it was written with, so `1.5` and
`1.50` are two texts of one value. Besides numbers there are the two infinities
and the values that are no number, which may carry a payload. -/
namespace TipJar

/-- A decimal: `coefficient * 10 ^ exponent` with a sign, or a special value. -/
inductive Decimal
  | finite (negative : Bool) (coefficient : Nat) (exponent : Int)
  | infinite (negative : Bool)
  | nan (negative signaling : Bool) (payload : Nat)
deriving DecidableEq, Inhabited

namespace Decimal

/-- A whole number without an exponent. -/
def ofInt (i : Int) : Decimal := finite (i < 0) i.natAbs 0

/-- Whether it is a number and not infinite. -/
def isFinite : Decimal → Bool
  | finite .. => true
  | _ => false

/-- Whether it is no number, of either sort. -/
def isNan : Decimal → Bool
  | nan .. => true
  | _ => false

/-- The exponent of the first digit. -/
def adjusted (coefficient : Nat) (exponent : Int) : Int :=
  exponent + (Text.digitCount coefficient - 1 : Nat)

/-- Whether the value is a whole number. A coefficient with fewer digits than the exponent cuts off
is whole only when it is zero, which needs no power of ten to see. -/
def isWhole : Decimal → Bool
  | finite _ coefficient exponent =>
    if 0 ≤ exponent then true
    else if Text.digitCount coefficient ≤ exponent.natAbs then coefficient == 0
    else coefficient % Nat.pow 10 exponent.natAbs == 0
  | _ => false

/-- The value without its fraction. -/
def truncate : Decimal → Option Int
  | finite negative coefficient exponent =>
    let size :=
      if 0 ≤ exponent then coefficient * Nat.pow 10 exponent.toNat
      else if Text.digitCount coefficient ≤ exponent.natAbs then 0
      else coefficient / Nat.pow 10 exponent.natAbs
    some (if negative then -(size : Int) else size)
  | _ => none

/-- Whether the value is at most zero; no answer for what is no number. -/
def atMostZero : Decimal → Option Bool
  | finite negative coefficient _ => some (negative || coefficient == 0)
  | infinite negative => some negative
  | nan .. => none

end Decimal
end TipJar
