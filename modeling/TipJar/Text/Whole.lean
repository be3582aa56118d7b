import TipJar.Text.Blank
import TipJar.Text.Digit

/-! Reading whole numbers: a sign, then digits of any alphabet with single
underscores between them, blanks around. There may be any number of digits; a
runtime that stops at 4300 of them does so by a setting of its own. -/
namespace TipJar.Text

/-- The value of digits with single underscores between them. -/
def wholeDigits? : List Char → Option (List Nat)
  | [] => none
  | [c] => (digitValue? c).map ([·])
  | c :: '_' :: rest => do
    let d ← digitValue? c
    let ds ← wholeDigits? rest
    some (d :: ds)
  | c :: rest => do
    let d ← digitValue? c
    let ds ← wholeDigits? rest
    some (d :: ds)

def whole? (s : String) : Option Int :=
  match stripWhere isNumberBlank s.toList with
  | '-' :: rest => (wholeDigits? rest).map fun ds => -(valueOf ds : Int)
  | '+' :: rest => (wholeDigits? rest).map fun ds => (valueOf ds : Int)
  | rest => (wholeDigits? rest).map fun ds => (valueOf ds : Int)

end TipJar.Text
