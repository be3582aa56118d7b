import TipJar.Decimal.Parser
import TipJar.Value.Number

/-! Reading amounts.

An amount is read from a count of smallest units or from a value in coins. Coins
come as text, whole number or decimal, never as a floating-point number; what is
finer than a unit is refused and never rounded. The count of units is computed
with as many digits as decimals keep. -/
namespace TipJar.Amount

/-- A count of units, which must not be negative. -/
def ofUnits (units : Int) : Checked Amount :=
  if units < 0 then .error (.invalid (.negativeAmount units)) else .ok ⟨units.toNat⟩

/-- A count of units of any kind; only whole numbers are counts. -/
def ofValue : Value → Checked Amount
  | .scalar (.int units) => ofUnits units
  | v => .error (.mismatch (.notUnits v.kind))

/-- The decimal that a value in coins is written as; none when it is no finite number. -/
def readCoins? : Value → Option Decimal
  | .scalar (.decimal d) => some d
  | v => (v.plain).toOption.bind fun s => Decimal.parse? (Text.trim s)

/-- The units in a decimal number of coins. -/
def ofDecimal (coins : Decimal) (written : String) : Checked Amount := do
  let units ← Checked.ofArithmetic (Decimal.scale Decimal.standard coins unitsPerCoin)
  if !units.isWhole then throw (.invalid (.tooFine written))
  ofUnits (units.truncate.getD 0)

/-- The amount that a value in coins stands for. -/
def ofCoins (v : Value) : Checked Amount :=
  match v with
  | .scalar (.float _) => .error (.invalid .floatCoins)
  | v =>
    match readCoins? v with
    | some coins =>
      if coins.isFinite then do
        let written ← Checked.ofArithmetic v.plain
        ofDecimal coins written
      else .error (.invalid (.unreadableAmount v.shown))
    | none => .error (.invalid (.unreadableAmount v.shown))

end TipJar.Amount
