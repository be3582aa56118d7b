import TipJar.Ledger.Queries
import TipJar.Program.Basic

/-! The report that puts the wallet's figures next to the ledger's. -/
namespace TipJar.Supply

/-- A report and when it was made. -/
structure Audit where
  madeAt : Moment
  report : Report

/-- Asks the wallet, then the ledger. A wallet that falls short is logged. -/
def audit : Program Audit := do
  let figures ← Program.wallet
  let (custodial, accounts) ← Program.transact "supply_report" do
    return (← Ledger.custodialTotal, ← Ledger.accountCount)
  let madeAt ← Program.now
  let report : Report := ⟨figures, custodial, accounts⟩
  if !report.isCovered then
    Program.note .warning "services.supply_report" "custodial_shortfall"
      [("wallet_balance", .nat figures.balance.units), ("custodial_total", .nat custodial.units),
       ("shortfall", .nat report.shortfall.units)]
  return ⟨madeAt, report⟩

end TipJar.Supply
