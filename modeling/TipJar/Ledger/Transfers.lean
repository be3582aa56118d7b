import TipJar.Ledger.Accounts
import TipJar.Transfer.Split

/-! Transfers.

A transfer is checked, split into equal shares, debited from its source and
credited to its destinations at once, and leaves one entry per destination. All
of it happens in one unit of work, so a failure at any point leaves no trace. -/
namespace TipJar.Ledger

/-- The entries that a transfer leaves, numbered from zero. -/
def entriesFor (event : Uuid) (i : Transfer.Intent) (share : Amount) (recordedAt : Moment) :
    Nat → List (String × Uuid) → List Entry
  | _, [] => []
  | line, (destination, id) :: rest =>
    { id, event, line, kind := .known i.kind, source := i.source, destination, amount := share,
      recordedAt } :: entriesFor event i share recordedAt (line + 1) rest

/-- Appends the entries of a transfer, if the tables admit them. -/
def record (event : Uuid) (i : Transfer.Intent) (share : Amount) (time : Moment) : Work Unit :=
  Work.flushing do
    let ids ← i.destinations.mapM fun destination => do return (destination, ← Work.freshId)
    let recordedAt ← Work.stored time
    let rows := entriesFor event i share recordedAt 0 ids
    if ¬(← Work.tables).Admits rows then Work.storeFails .violation
    Work.write fun s => { s with entries := s.entries ++ rows }

/-- Executes a transfer. The hold of one drop may be left out of account, for the transfer that pays
it out. -/
def execute (i : Transfer.Intent) (minimum : Amount) (except : Option Uuid) :
    Work Transfer.Receipt := do
  Work.check ((i.check minimum).mapError .refused)
  let split := Transfer.Split.of i.amount i.destinations.length
  let event ← Work.freshId
  let time ← Work.now
  Work.within [(.event, event.text), (.account, i.source)] do
    let _ ← debitAndCredit i.source (i.destinations.map (·, split.share)) except
    record event i split.share time
    Work.note .info "services.transfer_engine" "transfer_settled"
      [("kind", .text i.kind.text), ("recipients", .nat i.destinations.length),
       ("requested_total", .nat i.amount.units), ("moved_total", .nat split.moved.units),
       ("share", .nat split.share.units), ("remainder", .nat split.remainder.units)]
    return .ofSplit event i split time

end TipJar.Ledger
