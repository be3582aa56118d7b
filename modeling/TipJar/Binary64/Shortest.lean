import TipJar.Binary64.Basic
import TipJar.Text.Digit

/-! The text of a floating-point number: the fewest digits that read back.

The numbers that round to a given one form an interval. Among the decimal grids
of one, two, up to seventeen digits, the first that meets the interval gives the
digits; of its points there the nearest is taken. Digits stand in place while the
first of them lies between the fourth place behind the point and the sixteenth
before it, and are followed by an exponent otherwise. -/
namespace TipJar.Binary64

/-- Decimal digits and the place of the first: `digits * 10 ^ (point - count)`. -/
structure Digits where
  digits : List Char
  point : Int

/-- Whether `digits * 10 ^ exponent` lies within half a unit of a significand, ends included for an
even one. All is brought to whole numbers by the two scales. -/
def readsBack (significand : Nat) (exponent : Int) (digits : Nat) (power : Int) : Bool :=
  let two := if 0 ≤ exponent then Nat.pow 2 exponent.toNat else 1
  let twoBelow := if 0 ≤ exponent then 1 else Nat.pow 2 exponent.natAbs
  let ten := if 0 ≤ power then Nat.pow 10 power.toNat else 1
  let tenBelow := if 0 ≤ power then 1 else Nat.pow 10 power.natAbs
  -- four times the value, so that half units and the quarter below a power of two are whole
  let value := 4 * significand * two * tenBelow
  let unit := two * tenBelow
  let point := 4 * digits * ten * twoBelow
  let below :=
    if significand = Nat.pow 2 (precision - 1) ∧ minExponent < exponent then unit else 2 * unit
  if significand % 2 = 0 then value ≤ point + below && point ≤ value + 2 * unit
  else value < point + below && point < value + 2 * unit

/-- The multiple of `10 ^ power` nearest to a number, and the next below. -/
def gridPoints (significand : Nat) (exponent power : Int) : Nat × Nat :=
  let num := significand * (if 0 ≤ exponent then Nat.pow 2 exponent.toNat else 1) *
    (if 0 ≤ power then 1 else Nat.pow 10 power.natAbs)
  let den := (if 0 ≤ exponent then 1 else Nat.pow 2 exponent.natAbs) *
    (if 0 ≤ power then Nat.pow 10 power.toNat else 1)
  (roundQuotient num den, num / den)

/-- The place of the first decimal digit of a positive number. -/
def firstPlace (significand : Nat) (exponent : Int) : Int :=
  if 0 ≤ exponent then Text.digitCount (significand * Nat.pow 2 exponent.toNat)
  else
    let whole := significand / Nat.pow 2 exponent.natAbs
    if 0 < whole then Text.digitCount whole
    else
      -- a tenth of the value has its first digit one place later
      let guess : Nat := exponent.natAbs * 30103 / 100000 + 2
      Text.digitCount (significand * Nat.pow 10 guess / Nat.pow 2 exponent.natAbs) - guess

/-- The nearest point of the grid of the given number of digits that reads back. -/
def onGrid? (significand : Nat) (exponent place : Int) (count : Nat) : Option Nat :=
  let power := place - count
  let (near, below) := gridPoints significand exponent power
  let far := if near = below then below + 1 else below
  if near ≠ 0 && readsBack significand exponent near power then some near
  else if far ≠ 0 && readsBack significand exponent far power then some far
  else none

/-- Looks through the grids from `count` digits on. -/
def searchGrids (significand : Nat) (exponent place : Int) : Nat → Nat → Nat × Int
  | 0, count => ((gridPoints significand exponent (place - count)).1, place - count)
  | fuel + 1, count =>
    match onGrid? significand exponent place count with
    | some digits => (digits, place - count)
    | none => searchGrids significand exponent place fuel (count + 1)

/-- Removes zeros at the end. -/
def withoutTail (ds : List Char) : List Char :=
  (ds.reverse.dropWhile (· == '0')).reverse

/-- The fewest digits of a positive number. -/
def shortest (significand : Nat) (exponent : Int) : Digits :=
  let place := firstPlace significand exponent
  let (digits, power) := searchGrids significand exponent place 17 1
  let ds := Text.digitsOf digits
  ⟨withoutTail ds, power + ds.length⟩

/-- Digits in place: zeros fill up to the point, and at least one digit stands behind it. -/
def positional (d : Digits) : List Char :=
  if d.point ≤ 0 then ['0', '.'] ++ List.replicate d.point.natAbs '0' ++ d.digits
  else
    let whole := d.point.toNat
    let padded := d.digits ++ List.replicate (whole - d.digits.length) '0'
    let behind := padded.drop whole
    padded.take whole ++ '.' :: (if behind.isEmpty then ['0'] else behind)

/-- One digit before the point and an exponent of at least two digits. -/
def exponential (d : Digits) : List Char :=
  let first := d.point - 1
  let mantissa := match d.digits with
    | [] | [_] => d.digits
    | c :: rest => c :: '.' :: rest
  mantissa ++ 'e' :: (if first < 0 then '-' else '+') :: (Text.padded 2 first.natAbs).toList

def text : Binary64 → String
  | finite negative significand exponent =>
    let digits :=
      if significand = 0 then ['0', '.', '0']
      else
        let d := shortest significand exponent
        if -4 < d.point ∧ d.point ≤ 16 then positional d else exponential d
    (if negative then "-" else "") ++ String.ofList digits
  | infinite negative => if negative then "-inf" else "inf"
  | nan => "nan"

/-- The text with a fixed number of places, rounded half to even on the exact value. -/
def fixedText (places : Nat) : Binary64 → String
  | finite negative significand exponent =>
    let scaled :=
      if 0 ≤ exponent then significand * Nat.pow 2 exponent.toNat * Nat.pow 10 places
      else roundQuotient (significand * Nat.pow 10 places) (Nat.pow 2 exponent.natAbs)
    let whole := String.ofList (Text.digitsOf (scaled / Nat.pow 10 places))
    let behind := if places = 0 then "" else "." ++ Text.padded places (scaled % Nat.pow 10 places)
    (if negative then "-" else "") ++ whole ++ behind
  | f => f.text

end TipJar.Binary64
