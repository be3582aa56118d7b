import TipJar.Rounding

/-! Floating-point numbers of 64 bits, in exact arithmetic.

A finite number is a significand of at most 53 bits times a power of two, kept
in its one canonical form: the significand has all 53 bits, or the exponent is
the smallest there is. Every operation is computed exactly on whole numbers and
rounded once, so nothing depends on the machine. -/
namespace TipJar

/-- A number `significand * 2 ^ exponent` with a sign, an infinity, or no number. -/
inductive Binary64
  | finite (negative : Bool) (significand : Nat) (exponent : Int)
  | infinite (negative : Bool)
  | nan
deriving DecidableEq, Inhabited

namespace Binary64

/-- The exponent of the smallest numbers. -/
def minExponent : Int := -1074

/-- The largest exponent a significand may have. -/
def maxExponent : Int := 971

/-- The bits of a significand. -/
def precision : Nat := 53

def zero (negative : Bool) : Binary64 := finite negative 0 minExponent

/-- `num / (den * 2 ^ exponent)` as a pair of natural numbers. -/
def unscaled (num den : Nat) (exponent : Int) : Nat × Nat :=
  if 0 ≤ exponent then (num, den * Nat.pow 2 exponent.toNat)
  else (num * Nat.pow 2 exponent.natAbs, den)

/-- The exponent at which a positive quotient has all its bits, and no smaller one than there is. -/
def exponentFor (num den : Nat) : Int :=
  let low : Int := (Nat.log2 num : Int) - Nat.log2 den - precision
  let (n, d) := unscaled num den low
  max minExponent (if n / d < Nat.pow 2 precision then low else low + 1)

/-- The number nearest to `num / den`, a half to the even significand. What rounds beyond the
largest number is infinite. -/
def ofRatio (negative : Bool) (num den : Nat) : Binary64 :=
  if num = 0 then zero negative
  else
    let exponent := exponentFor num den
    let (n, d) := unscaled num den exponent
    let rounded := roundQuotient n d
    let (significand, exponent) :=
      if rounded = Nat.pow 2 precision then (Nat.pow 2 (precision - 1), exponent + 1)
      else (rounded, exponent)
    if maxExponent < exponent then infinite negative
    else finite negative significand exponent

/-- The number nearest to `i * 2 ^ exponent`. -/
def ofScaled (i : Int) (exponent : Int) : Binary64 :=
  if 0 ≤ exponent then ofRatio (i < 0) (i.natAbs * Nat.pow 2 exponent.toNat) 1
  else ofRatio (i < 0) i.natAbs (Nat.pow 2 exponent.natAbs)

/-- The number nearest to a whole number. -/
def ofInt (i : Int) : Binary64 := ofScaled i 0

def isNan : Binary64 → Bool
  | nan => true
  | _ => false

/-- The significand with its sign. -/
def signed (negative : Bool) (significand : Nat) : Int :=
  if negative then -(significand : Int) else significand

/-- The value without its fraction; none for what has no value. -/
def truncate? : Binary64 → Option Int
  | finite negative significand exponent =>
    let size :=
      if 0 ≤ exponent then significand * Nat.pow 2 exponent.toNat
      else significand / Nat.pow 2 exponent.natAbs
    some (signed negative size)
  | _ => none

/-- What truncation removes, with the sign of the number. -/
def fraction : Binary64 → Binary64
  | finite negative significand exponent =>
    if 0 ≤ exponent then zero negative
    else
      let rest := significand % Nat.pow 2 exponent.natAbs
      if rest = 0 then zero negative else ofRatio negative rest (Nat.pow 2 exponent.natAbs)
  | infinite negative => zero negative
  | nan => nan

/-- Whether it is one of the two zeros. -/
def isZero : Binary64 → Bool
  | finite _ significand _ => significand == 0
  | _ => false

/-- The order of a number and a whole number; none for what is no number. -/
def compareInt? (f : Binary64) (i : Int) : Option Ordering :=
  match f with
  | finite negative significand exponent =>
    let s := signed negative significand
    if 0 ≤ exponent then some (compare (s * Nat.pow 2 exponent.toNat) i)
    else some (compare s (i * Nat.pow 2 exponent.natAbs))
  | infinite negative => some (if negative then .lt else .gt)
  | nan => none

/-- The product with a whole number, rounded once. -/
def scale (f : Binary64) (factor : Nat) : Binary64 :=
  match f with
  | finite negative significand exponent =>
    if significand * factor = 0 then zero negative
    else ofScaled (signed negative (significand * factor)) exponent
  | infinite negative => if factor = 0 then nan else infinite negative
  | nan => nan

/-- The sum, rounded once. Two zeros of different sign have a positive sum. -/
def add : Binary64 → Binary64 → Binary64
  | finite n s e, finite n' s' e' =>
    let low := min e e'
    let sum := signed n (s * Nat.pow 2 (e - low).toNat) +
      signed n' (s' * Nat.pow 2 (e' - low).toNat)
    if sum = 0 then zero (n && n') else ofScaled sum low
  | infinite n, infinite n' => if n = n' then infinite n else nan
  | infinite n, finite .. => infinite n
  | finite .., infinite n => infinite n
  | _, _ => nan

/-- The whole number nearest to `whole + f` when both neighbours are equally near the even one. -/
def roundOnto (whole : Int) (f : Binary64) : Int :=
  match f with
  | finite negative significand exponent =>
    if 0 ≤ exponent then whole + signed negative (significand * Nat.pow 2 exponent.toNat)
    else
      let unit : Nat := Nat.pow 2 exponent.natAbs
      let total := whole * unit + signed negative significand
      signed (total < 0) (roundQuotient total.natAbs unit)
  | _ => whole

end Binary64
end TipJar
