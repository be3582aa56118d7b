import TipJar.Decimal.Basic
import TipJar.Rounding

/-! Decimal arithmetic with a bounded number of digits.

A result keeps at most 28 digits and is rounded to the nearest, a half to the
even neighbour. Its first digit stands at an exponent of at most 999999, and what
would lie beyond overflows; small results lose digits below exponent -1000026
and vanish silently at last. A quotient is worked out to more digits than are kept
and then rounded like any other result. -/
namespace TipJar.Decimal

/-- How results are bounded. -/
structure Bounds where
  precision : Nat
  maxExponent : Int
  minExponent : Int

/-- The bounds amounts are read under. -/
def standard : Bounds := ⟨28, 999999, -999999⟩

/-- The exponent of the last digit that a result can have. -/
def Bounds.lastPlace (b : Bounds) : Int := b.minExponent - (b.precision - 1 : Nat)

/-- Why an operation has no result. -/
inductive ArithmeticError
  | overflow
  /-- The operands have no result under the bounds. -/
  | invalidOperation
deriving DecidableEq

/-- Drops the last `places` digits of a coefficient. Dropping more digits than there are leaves
less than half a unit, so nothing. -/
def dropDigits (coefficient places : Nat) : Nat :=
  if Text.digitCount coefficient < places then 0 else roundQuotient coefficient (Nat.pow 10 places)

/-- The nearest number within the bounds. -/
def bounded (b : Bounds) (negative : Bool) (coefficient : Nat) (exponent : Int) :
    Except ArithmeticError Decimal :=
  if coefficient = 0 then
    .ok (finite negative 0 (max b.lastPlace (min exponent b.maxExponent)))
  else
    let keep :=
      max exponent (max (adjusted coefficient exponent - (b.precision - 1 : Nat)) b.lastPlace)
    let kept := dropDigits coefficient (keep - exponent).toNat
    let carried := kept == Nat.pow 10 b.precision
    let last := if carried then keep + 1 else keep
    let kept := if carried then kept / 10 else kept
    if kept ≠ 0 ∧ b.maxExponent < adjusted kept last then .error .overflow
    else .ok (finite negative kept last)

/-- The product of a decimal and a positive whole number. -/
def scale (b : Bounds) (d : Decimal) (factor : Nat) : Except ArithmeticError Decimal :=
  match d with
  | finite negative coefficient exponent => bounded b negative (coefficient * factor) exponent
  | infinite negative => .ok (infinite negative)
  | nan negative false payload => .ok (nan negative false payload)
  | nan _ true _ => .error .invalidOperation

/-- Takes zeros off the end of a number, so many at most: what is left, and how many went. -/
def takeZeros : Nat → Nat → Nat × Nat
  | 0, n => (n, 0)
  | most + 1, n =>
    if n % 10 = 0 then
      let (left, gone) := takeZeros most (n / 10)
      (left, gone + 1)
    else (n, 0)

/-- The quotient of a decimal and a positive whole number. One that ends has no more places than it
needs, though no fewer than the decimal; of one that does not, the last digit shows that something
follows. -/
def quotient (b : Bounds) (d : Decimal) (divisor : Nat) : Except ArithmeticError Decimal :=
  match d with
  | finite negative coefficient exponent =>
    if coefficient = 0 then bounded b negative 0 exponent
    else
      let shift : Int :=
        (Text.digitCount divisor + b.precision + 1 : Nat) - (Text.digitCount coefficient : Nat)
      let dividend := coefficient * Nat.pow 10 shift.toNat
      let divisor := divisor * Nat.pow 10 (-shift).toNat
      let whole := dividend / divisor
      if dividend % divisor = 0 then
        let (left, gone) := takeZeros shift.toNat whole
        bounded b negative left (exponent - shift + gone)
      else bounded b negative (if whole % 5 = 0 then whole + 1 else whole) (exponent - shift)
  | infinite negative => .ok (infinite negative)
  | nan negative false payload => .ok (nan negative false payload)
  | nan _ true _ => .error .invalidOperation

/-- The decimal with its last digit at another place, rounded if need be. There is none if that
takes more digits than are kept. -/
def quantize (b : Bounds) (d : Decimal) (place : Int) : Except ArithmeticError Decimal :=
  match d with
  | finite negative coefficient exponent =>
    if place < b.lastPlace ∨ b.maxExponent < place then .error .invalidOperation
    else if coefficient = 0 then .ok (finite negative 0 place)
    else if b.maxExponent < adjusted coefficient exponent ∨
        b.precision < adjusted coefficient exponent - place + 1 then .error .invalidOperation
    else
      let kept :=
        if place ≤ exponent then coefficient * Nat.pow 10 (exponent - place).toNat
        else dropDigits coefficient (place - exponent).toNat
      if b.maxExponent < adjusted kept place ∨ b.precision < Text.digitCount kept then
        .error .invalidOperation
      else .ok (finite negative kept place)
  | infinite _ => .error .invalidOperation
  | nan negative false payload => .ok (nan negative false payload)
  | nan _ true _ => .error .invalidOperation

end TipJar.Decimal
