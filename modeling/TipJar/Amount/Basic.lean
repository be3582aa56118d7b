import TipJar.Decimal.Printer
import TipJar.Decimal.Arithmetic

/-! Amounts of the ledger coin.

An amount is a count of smallest units, a hundred million to the coin, so sums,
differences, multiples and equal shares of amounts are exact. Being a natural
number it is never negative: a difference that would be has no amount. -/
namespace TipJar

/-- A count of smallest units. -/
@[ext] structure Amount where
  units : Nat
deriving DecidableEq, Inhabited

namespace Amount

/-- The places behind the point of an amount in coins. -/
def decimalPlaces : Nat := 8

/-- A hundred million. -/
def unitsPerCoin : Nat := Nat.pow 10 decimalPlaces

/-- The name of the coin unless another is configured. -/
def defaultTicker : String := "VRSC"

def zero : Amount := ⟨0⟩

instance : Add Amount := ⟨fun a b => ⟨a.units + b.units⟩⟩
instance : LE Amount := ⟨fun a b => a.units ≤ b.units⟩
instance : LT Amount := ⟨fun a b => a.units < b.units⟩
instance (a b : Amount) : Decidable (a ≤ b) := inferInstanceAs (Decidable (a.units ≤ b.units))
instance (a b : Amount) : Decidable (a < b) := inferInstanceAs (Decidable (a.units < b.units))

/-- The difference; none when more would be taken than there is. -/
def sub? (a b : Amount) : Option Amount :=
  if b ≤ a then some ⟨a.units - b.units⟩ else none

/-- A multiple. -/
def times (a : Amount) (count : Nat) : Amount := ⟨a.units * count⟩

def sum (as : List Amount) : Amount := as.foldr (· + ·) zero

/-- Equal shares and what they leave over. -/
def split (a : Amount) (count : Nat) : Amount × Amount := (⟨a.units / count⟩, ⟨a.units % count⟩)

/-- The value in coins, with all its places. A number of units that fills more digits than decimals
keep has none. -/
def toCoins (a : Amount) : Except Decimal.ArithmeticError Decimal := do
  let coins ← Decimal.quotient Decimal.standard (Decimal.ofInt a.units) unitsPerCoin
  coins.quantize Decimal.standard (-(decimalPlaces : Int))

/-- The value in coins, written out. -/
def text (a : Amount) : Except Decimal.ArithmeticError String := (a.toCoins).map (·.positional)

/-- The text followed by the name of the coin. -/
def format (a : Amount) (ticker : String) : Except Decimal.ArithmeticError String :=
  (a.text).map (· ++ " " ++ ticker)

@[simp] theorem units_zero : zero.units = 0 := rfl
@[simp] theorem units_add (a b : Amount) : (a + b).units = a.units + b.units := rfl
@[simp] theorem units_times (a : Amount) (n : Nat) : (a.times n).units = a.units * n := rfl
theorem le_iff {a b : Amount} : a ≤ b ↔ a.units ≤ b.units := Iff.rfl
theorem lt_iff {a b : Amount} : a < b ↔ a.units < b.units := Iff.rfl

@[simp] theorem sum_nil : sum [] = zero := rfl
@[simp] theorem units_sum_cons (a : Amount) (as : List Amount) :
    (sum (a :: as)).units = a.units + (sum as).units := rfl

/-- Shares and remainder make up the amount. -/
theorem split_units (a : Amount) (count : Nat) :
    (a.split count).1.units * count + (a.split count).2.units = a.units := by
  simp only [split, Nat.mul_comm]
  exact Nat.div_add_mod a.units count

end Amount
end TipJar
