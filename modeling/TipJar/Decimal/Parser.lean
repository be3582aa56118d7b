import TipJar.Decimal.Basic
import TipJar.Text.Blank

/-! Reading decimals.

Blanks at the ends and underscores anywhere are passed over, and digits of every
alphabet count. What is left is a sign, then digits with at most one point among
them and an optional exponent, or the word of a special value in any case. -/
namespace TipJar.Decimal

/-- The largest exponent the first digit of a written number may have. -/
def writtenMaxExponent : Int := 999999999999999999

/-- The smallest exponent the last digit of a written number may have. -/
def writtenMinExponent : Int := -1999999999999999997

/-- The text without blanks at its ends and underscores, digits of all alphabets made plain and
capital letters small. -/
def plainText (s : String) : List Char :=
  (Text.stripWhere Text.isBlank s.toList).filterMap fun c =>
    if c == '_' then none
    else match Text.digitValue? c with
      | some d => some (Text.digitChar d)
      | none => some c.toLower

/-- The values of the digits at the front, and the rest. -/
def takeDigits : List Char → List Nat × List Char
  | [] => ([], [])
  | c :: rest =>
    if c.isDigit then
      let (ds, after) := takeDigits rest
      ((c.toNat - 48) :: ds, after)
    else ([], c :: rest)

/-- Takes a sign: whether it is a minus, and the rest. -/
def takeSign : List Char → Bool × List Char
  | '-' :: rest => (true, rest)
  | '+' :: rest => (false, rest)
  | rest => (false, rest)

/-- An exponent at the end of a number: the letter, a sign and at least one digit, or nothing. -/
def exponent? : List Char → Option Int
  | [] => some 0
  | 'e' :: rest =>
    let (negative, rest) := takeSign rest
    match takeDigits rest with
    | (d :: ds, []) =>
      let n : Int := Text.valueOf (d :: ds)
      some (if negative then -n else n)
    | _ => none
  | _ => none

/-- Digits, a point among them perhaps, and the exponent. -/
def unsigned? (negative : Bool) (s : List Char) : Option Decimal :=
  let (whole, rest) := takeDigits s
  let (fraction, rest) := match rest with
    | '.' :: rest => takeDigits rest
    | rest => ([], rest)
  if whole.isEmpty && fraction.isEmpty then none
  else do
    let power ← exponent? rest
    let coefficient := Text.valueOf (whole ++ fraction)
    let exponent := power - (fraction.length : Int)
    let first := if coefficient = 0 then exponent else adjusted coefficient exponent
    if first ≤ writtenMaxExponent ∧ writtenMinExponent ≤ exponent then
      some (finite negative coefficient exponent)
    else none

/-- The payload of a value that is no number: digits and nothing else. -/
def payload? (s : List Char) : Option Nat :=
  match takeDigits s with
  | (ds, []) => some (Text.valueOf ds)
  | _ => none

def parse? (s : String) : Option Decimal :=
  let (negative, body) := takeSign (plainText s)
  match body with
  | ['i', 'n', 'f'] | ['i', 'n', 'f', 'i', 'n', 'i', 't', 'y'] => some (infinite negative)
  | 'n' :: 'a' :: 'n' :: rest => (payload? rest).map (nan negative false)
  | 's' :: 'n' :: 'a' :: 'n' :: rest => (payload? rest).map (nan negative true)
  | body => unsigned? negative body

end TipJar.Decimal
