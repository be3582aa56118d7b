import TipJar.Decimal.Basic

/-! Writing decimals.

Digits stand in place as long as the number has no positive exponent and starts
within six places behind the point; any other number is written with one digit
before the point and an exponent. Positional text has all digits in place, however
many that makes. -/
namespace TipJar.Decimal

/-- Digits with a point before the last `places` of them, a zero before the point at least. -/
def withPoint (digits : List Char) (places : Nat) : List Char :=
  if places = 0 then digits
  else
    let digits := List.replicate (places + 1 - digits.length) '0' ++ digits
    let whole := digits.length - places
    digits.take whole ++ '.' :: digits.drop whole

/-- One digit, the others behind a point, and the exponent of the first. -/
def scientific (digits : List Char) (first : Int) : List Char :=
  let mantissa := match digits with
    | [] | [_] => digits
    | d :: rest => d :: '.' :: rest
  let sign := if first < 0 then '-' else '+'
  mantissa ++ 'E' :: sign :: Text.digitsOf first.natAbs

/-- The digits of a number without its sign. -/
def unsignedText (coefficient : Nat) (exponent : Int) : List Char :=
  let digits := Text.digitsOf coefficient
  let first := adjusted coefficient exponent
  if exponent ≤ 0 ∧ -6 ≤ first then withPoint digits exponent.natAbs
  else scientific digits first

/-- The digits of a number in place, without its sign. -/
def unsignedPositional (coefficient : Nat) (exponent : Int) : List Char :=
  withPoint (Text.digitsOf (coefficient * Nat.pow 10 exponent.toNat)) (-exponent).toNat

def text : Decimal → String
  | finite negative coefficient exponent =>
    (if negative then "-" else "") ++ String.ofList (unsignedText coefficient exponent)
  | infinite negative => (if negative then "-" else "") ++ "Infinity"
  | nan negative signaling payload =>
    (if negative then "-" else "") ++ (if signaling then "sNaN" else "NaN") ++
      (if payload = 0 then "" else String.ofList (Text.digitsOf payload))

/-- The text of a decimal without an exponent. -/
def positional : Decimal → String
  | finite negative coefficient exponent =>
    (if negative then "-" else "") ++ String.ofList (unsignedPositional coefficient exponent)
  | d => d.text

end TipJar.Decimal
