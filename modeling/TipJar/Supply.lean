import TipJar.Fault.Basic

/-! What the wallet holds next to what the accounts are owed.

The report only shows figures. A wallet that holds less than the sum of all
balances is short, and the report says by how much. -/
namespace TipJar.Supply

/-- What the wallet node reports. -/
structure Figures where
  balance : Amount
  height : Option Int
  staking : Option Amount
deriving DecidableEq

/-- The wallet's figures and the ledger's. -/
structure Report where
  wallet : Figures
  custodial : Amount
  accounts : Int
deriving DecidableEq

namespace Report

/-- Whether the wallet holds what the accounts are owed. -/
def isCovered (r : Report) : Bool := r.custodial ≤ r.wallet.balance

/-- What the wallet holds beyond the balances; zero when it is short. -/
def surplus (r : Report) : Amount := (r.wallet.balance.sub? r.custodial).getD .zero

/-- What the wallet lacks; zero when it is not short. -/
def shortfall (r : Report) : Amount :=
  if r.isCovered then .zero else ⟨r.custodial.units - r.wallet.balance.units⟩

def text (r : Report) (ticker : String) : Except Decimal.ArithmeticError String := do
  let wallet ← r.wallet.balance.format ticker
  let held ← r.custodial.format ticker
  let staking ← r.wallet.staking.mapM (·.format ticker)
  let last ←
    if r.isCovered then (r.surplus.format ticker).map ("Surplus: " ++ ·)
    else (r.shortfall.format ticker).map ("SHORTFALL: " ++ ·)
  return "\n".intercalate
    (["Wallet balance: " ++ wallet,
      "Held for " ++ Text.integerText r.accounts ++ " accounts: " ++ held] ++
     (r.wallet.height.map fun h => "Block height: " ++ Text.integerText h).toList ++
     (staking.map ("Staking supply: " ++ ·)).toList ++ [last])

end Report
end TipJar.Supply
