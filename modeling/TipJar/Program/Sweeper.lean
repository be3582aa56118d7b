import TipJar.Drop.Sweep
import TipJar.Program.Tipping

/-! The sweeper.

A sweep fails the drops whose settlement was interrupted, then settles those that
are due, the longest due first. A drop is claimed in one unit of work and paid out
in another, and its participants are looked up in between; so several sweepers may
work at once, and whoever loses a claim leaves the drop alone. Payment and the new
status are written together, and a drop that cannot be paid is failed for good. -/
namespace TipJar

/-- What a sweeper is set up with. -/
structure Sweeper where
  /-- Who tells the participants, if anybody does. -/
  notifier : Option Notifier
  minimum : Amount
  /-- The seconds between two sweeps. -/
  interval : Binary64
  /-- How many drops a sweep settles. -/
  batch : Int
  /-- The seconds after which a settlement counts as interrupted. -/
  stalledAfter : Value
  /-- The seconds that looking up participants may take. -/
  lookupLimit : Binary64
  execute : Executor

namespace Sweeper

/-- A sweeper with nothing configured. -/
def unconfigured (notifier : Option Notifier) (execute : Executor) : Sweeper :=
  { notifier, minimum := Transfer.defaultMinimum, interval := .ofInt 30, batch := 50,
    stalledAfter := .int 900, lookupLimit := .ofInt 30, execute }

/-- The part of the program that lines of this module are from. -/
def part : String := "batch.settlement_scheduler"

/-- The reasons of failures that are not the request's own. -/
def lookupReason : String := "participant_lookup_failed"

/-- Why a drop failed when the store did. -/
def storeReason : String := "persistence_failure"

/-- The reason that stands for a refusal. -/
def reasonOf (r : Refusal) : String := r.category.code.toLower

/-- Somebody else finished the drop first; the transfer was undone. -/
def lost (drop : Uuid) (status : String) : Program Drop.Result := do
  Program.note .warning part "reactdrop_claim_lost" [("current_status", .text status)]
  return ⟨drop, .skipped, none, none⟩

/-- Fails a drop. When that cannot be written the drop stays settling, and a later sweep will find
its settlement interrupted. -/
def abandon (d : Drop) (reason told : String) (participants : Option Int) :
    Program Drop.Result := do
  Program.note .error part "reactdrop_settlement_failed"
    [("reason", .text reason), ("initiator", .text d.initiator), ("amount", .nat d.amount.units),
     ("error", .text told)]
  let written ← (Program.transact "fail_reactdrop" do
    Ledger.markFailed d.id reason (← Ledger.Work.now) participants).attempt
  match written with
  | .ok _ => pure ()
  | .error (.refused (.unsaved operation cause)) =>
    Program.noteFault .error part "reactdrop_fail_not_recorded" []
      (.refused (.unsaved operation cause))
  | .error (.refused (.alreadySettled _ status)) =>
    Program.note .warning part "reactdrop_fail_not_recorded" [("current_status", .text status)]
  | .error why => Program.fail why
  return ⟨d.id, .failed, none, some reason⟩

/-- Expires a drop that nobody took part in. -/
def expire (d : Drop) : Program Drop.Result := do
  let written ← (Program.transact "expire_reactdrop" do
    Ledger.markExpired d.id (← Ledger.Work.now)).attempt
  match written with
  | .ok _ =>
    Program.note .info part "reactdrop_expired" [("reason", .text "no_participants")]
    return ⟨d.id, .expired, none, none⟩
  | .error (.refused (.alreadySettled _ status)) => lost d.id status
  | .error why => Program.fail why

/-- Pays a drop out and marks it settled, in one unit of work. -/
def payOut (s : Sweeper) (d : Drop) (participants : List String) :
    Ledger.Work Transfer.Receipt := do
  let receipt ← s.execute ⟨d.initiator, participants, d.amount, .drop⟩ s.minimum (some d.id)
  let _ ← Ledger.markSettled d.id receipt.event receipt.destinations.length receipt.moved
    receipt.settledAt
  return receipt

/-- Settles a claimed drop among its participants. -/
def settle (s : Sweeper) (d : Drop) (participants : List String) : Program Drop.Result := do
  let count : Int := participants.length
  match ← (Program.transact "settle_reactdrop" (s.payOut d participants)).attempt with
  | .ok receipt =>
    Program.note .info part "reactdrop_settled"
      [("event_id", .text receipt.event.text), ("participants", .nat receipt.destinations.length),
       ("moved_total", .nat receipt.moved.units)]
    if let some notifier := s.notifier then
      let _ ← notifier.notify receipt d.channel none
    return ⟨d.id, .settled, some receipt, none⟩
  | .error (.refused (.alreadySettled _ status)) => lost d.id status
  | .error (.refused refusal) =>
    let told := refusal.category.name ++ ": " ++ refusal.message
    if refusal.isValidation then abandon d (reasonOf refusal) told (some count)
    else if refusal.category = .persistenceFailure then abandon d storeReason told (some count)
    else Program.fail (.refused refusal)
  | .error why => Program.fail why

/-- Claims a due drop and settles it. -/
def settleOne (s : Sweeper) (id : Uuid) : Program Drop.Result := do
  let claimed ← (Program.transact "claim_reactdrop" do
    Ledger.claim id (← Ledger.Work.now)).attempt
  match claimed with
  | .error (.refused (.alreadySettled ..)) => return ⟨id, .skipped, none, none⟩
  | .error why => Program.fail why
  | .ok d =>
    match ← Program.tryCall (.reactions d.channel d.message d.token) (some s.lookupLimit) with
    | .error why => abandon d lookupReason why.told none
    | .ok reacted =>
      match Drop.eligible reacted d.initiator with
      | [] => expire d
      | participants => s.settle d participants

/-- Settles drops one after another until the sweeper is asked to stop. -/
def settleEach (s : Sweeper) : List Drop → Program (List Drop.Result)
  | [] => return []
  | d :: rest => do
    if ← Program.stopping then return []
    let result ← Program.within [(.drop, d.id.text)] (s.settleOne d.id)
    return result :: (← s.settleEach rest)

/-- One pass over interrupted and due drops. -/
def sweep (s : Sweeper) : Program Drop.Sweep := do
  let startedAt ← Program.now
  let interrupted ← Program.transact "fail_stalled_reactdrops"
    (Ledger.failStalled startedAt s.stalledAfter)
  let due ← Program.transact "find_due_reactdrops" do
    Ledger.Work.check ((← Ledger.findDue startedAt (some s.batch)).mapM Ledger.readDrop)
  let results ← s.settleEach due
  let pass : Drop.Sweep := ⟨startedAt, results, interrupted.length⟩
  if !due.isEmpty || !interrupted.isEmpty then
    let t := pass.tally
    Program.note .info part "reactdrop_sweep_completed"
      [("due", .nat due.length), ("settled", .nat t.settled), ("expired", .nat t.expired),
       ("failed", .nat t.failed), ("skipped", .nat t.skipped),
       ("interrupted_failed", .nat interrupted.length)]
  return pass

/-- Says that the sweeper was started. -/
def noteStarted (s : Sweeper) : Program Unit :=
  Program.note .info part "scheduler_started" [("sweep_interval", .scalar (.float s.interval))]

/-- Says that the sweeper was stopped. -/
def noteStopped : Program Unit := Program.note .info part "scheduler_stopped" []

/-- Says that a sweep was cut off when the sweeper had not stopped in time. -/
def noteCutOff (limit : Value) : Program Unit :=
  Program.note .warning part "scheduler_stop_timeout" [("timeout", limit)]

/-- A sweep of the background loop, which survives a sweep that fails. -/
def round (s : Sweeper) : Program (Checked Drop.Sweep) := do
  let result ← s.sweep.attempt
  if let .error why := result then
    Program.noteFault .error part "scheduler_sweep_failed" [] why
  return result

end Sweeper
end TipJar
