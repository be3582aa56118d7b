import TipJar.Amount.Basic
import TipJar.Binary64.Basic

/-! How the store calculates with amounts.

A column has 64 bits, one of them for the sign. A sum or a difference that fits a
column is exact. One that does not is not refused: it is formed from the nearest
floating-point numbers and rounded to one, and a balance that has outgrown its
column stays such a number until it fits again. -/
namespace TipJar.Ledger

/-- The greatest number a column can hold. -/
def columnMax : Int := 0x7fffffffffffffff

/-- The floating-point number nearest to a count, a half to the even significand. -/
def nearestFloat (n : Nat) : Nat :=
  let unit := Nat.pow 2 (Nat.log2 n + 1 - Binary64.precision)
  roundQuotient n unit * unit

def columnSum (a b : Nat) : Nat :=
  if (a + b : Nat) ≤ columnMax then a + b else nearestFloat (nearestFloat a + nearestFloat b)

/-- What is left of a balance without what is taken from it or held of it. -/
def columnDifference (a b : Nat) : Int :=
  if a ≤ columnMax then a - b else nearestFloat (nearestFloat a - nearestFloat b)

theorem columnSum_of_fits {a b : Nat} (h : (a + b : Nat) ≤ columnMax) : columnSum a b = a + b :=
  if_pos h

theorem columnDifference_of_fits {a : Nat} (h : a ≤ columnMax) (b : Nat) :
    columnDifference a b = a - b := if_pos h

end TipJar.Ledger
