import TipJar.Amount.Basic

/-! The balance of an account as its holder sees it. -/
namespace TipJar.Ledger

/-- A balance, and what the holder's own drops hold of it. -/
structure Balance where
  account : String
  balance : Amount
  held : Amount
deriving DecidableEq

/-- What can be spent: the balance without what is held, and never less than nothing. -/
def Balance.available (b : Balance) : Amount := (b.balance.sub? b.held).getD .zero

theorem Balance.units_available (b : Balance) :
    b.available.units = b.balance.units - b.held.units := by
  unfold Balance.available Amount.sub?
  split
  · rfl
  · next h =>
    have : ¬ b.held.units ≤ b.balance.units := h
    simp only [Option.getD_none, Amount.units_zero]
    omega

end TipJar.Ledger
