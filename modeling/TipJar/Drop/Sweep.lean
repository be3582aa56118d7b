import TipJar.Drop.Status
import TipJar.Fault.Basic
import TipJar.Transfer.Split

/-! What one pass over the due drops did. -/
namespace TipJar.Drop

/-- What happened to one drop. -/
structure Result where
  drop : Uuid
  outcome : Outcome
  receipt : Option Transfer.Receipt
  reason : Option String

/-- One pass. -/
structure Sweep where
  startedAt : Moment
  results : List Result
  /-- How many drops were failed because their settlement had been interrupted. -/
  interrupted : Nat

/-- How many outcomes there are of each kind. -/
structure Tally where
  settled : Nat
  expired : Nat
  failed : Nat
  skipped : Nat
  /-- All but the skipped ones. -/
  processed : Nat
deriving DecidableEq

def tally (outcomes : List Outcome) : Tally :=
  { settled := outcomes.count .settled
    expired := outcomes.count .expired
    failed := outcomes.count .failed
    skipped := outcomes.count .skipped
    processed := outcomes.length - outcomes.count .skipped }

/-- The counts of what a sweep did. -/
def Sweep.tally (s : Sweep) : Tally := Drop.tally (s.results.map (·.outcome))

end TipJar.Drop
