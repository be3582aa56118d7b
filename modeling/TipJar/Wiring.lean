import TipJar.Config.Basic
import TipJar.Program.Sweeper

/-! Commands and sweeper, wired from one configuration. -/
namespace TipJar

/-- Everything that acts on one ledger. -/
structure Wiring where
  notifier : Notifier
  tipping : Tipping
  sweeper : Sweeper

/-- Wires a ledger. A drop that passed its own minimum is only split up by the sweeper, which
therefore asks for no more than the least tip. -/
def Wiring.of (c : Config) : Wiring :=
  let notifier : Notifier :=
    { ticker := c.ledger.ticker, limit := c.notifications.deliveryTimeout, remembers := true }
  { notifier
    tipping :=
      { notifier, minimumTip := c.ledger.minimumTip, minimumRoleTip := c.ledger.minimumRoleTip,
        minimumDrop := c.ledger.minimumDrop, maxHours := c.drops.maxHours,
        execute := Ledger.execute }
    sweeper :=
      { notifier := some notifier, minimum := c.ledger.minimumTip,
        interval := c.scheduler.sweepInterval, batch := c.scheduler.batchSize,
        stalledAfter := .int c.scheduler.stalledAfter, lookupLimit := c.scheduler.lookupTimeout,
        execute := Ledger.execute } }

end TipJar
