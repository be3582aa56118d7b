import TipJar.Binary64.Basic
import TipJar.Text.Blank
import TipJar.Text.Digit

/-! Reading floating-point numbers.

Blanks at the ends are passed over. Single underscores may stand between two
digits, digits of every alphabet count, and the exact value of what is written is
rounded once. -/
namespace TipJar.Binary64

/-- Digits of all alphabets made plain, capital letters small. -/
def plainText (s : String) : List Char :=
  (Text.stripWhere Text.isNumberBlank s.toList).map fun c =>
    match Text.digitValue? c with
    | some d => Text.digitChar d
    | none => c.toLower

/-- Removes single underscores between digits; none when one stands elsewhere. -/
def withoutSeparators? : Bool → List Char → Option (List Char)
  | _, [] => some []
  | afterDigit, '_' :: c :: rest =>
    if afterDigit && c.isDigit then (withoutSeparators? true rest).map (c :: ·) else none
  | _, ['_'] => none
  | _, c :: rest => (withoutSeparators? c.isDigit rest).map (c :: ·)

/-- Takes a sign: whether it is a minus, and the rest. -/
def takeSign : List Char → Bool × List Char
  | '-' :: rest => (true, rest)
  | '+' :: rest => (false, rest)
  | rest => (false, rest)

/-- The values of the digits at the front, and the rest. -/
def takeDigits (s : List Char) : List Nat × List Char :=
  ((s.takeWhile Char.isDigit).map (·.toNat - 48), s.dropWhile Char.isDigit)

/-- An exponent at the end, or nothing. -/
def exponent? : List Char → Option Int
  | [] => some 0
  | 'e' :: rest =>
    let (negative, rest) := takeSign rest
    match takeDigits rest with
    | (d :: ds, []) =>
      let n : Int := Text.valueOf (d :: ds)
      some (if negative then -n else n)
    | _ => none
  | _ => none

/-- The number nearest to `coefficient * 10 ^ power`. Beyond the powers that any number reaches, the
outcome is known without computing them. -/
def ofDecimal (negative : Bool) (coefficient : Nat) (power : Int) : Binary64 :=
  if coefficient = 0 then zero negative
  else
    let first := power + Text.digitCount coefficient
    if 400 < first then infinite negative
    else if first < -400 then zero negative
    else if 0 ≤ power then ofRatio negative (coefficient * Nat.pow 10 power.toNat) 1
    else ofRatio negative coefficient (Nat.pow 10 power.natAbs)

/-- Digits, a point among them perhaps, and the exponent. -/
def unsigned? (negative : Bool) (s : List Char) : Option Binary64 :=
  let (whole, rest) := takeDigits s
  let (behind, rest) := match rest with
    | '.' :: rest => takeDigits rest
    | rest => ([], rest)
  if whole.isEmpty && behind.isEmpty then none
  else do
    let power ← exponent? rest
    some (ofDecimal negative (Text.valueOf (whole ++ behind)) (power - (behind.length : Int)))

/-- Reads a number. -/
def parse? (s : String) : Option Binary64 := do
  let body ← withoutSeparators? false (plainText s)
  let (negative, body) := takeSign body
  match body with
  | ['i', 'n', 'f'] | ['i', 'n', 'f', 'i', 'n', 'i', 't', 'y'] => some (infinite negative)
  | ['n', 'a', 'n'] => some nan
  | body => unsigned? negative body

end TipJar.Binary64
