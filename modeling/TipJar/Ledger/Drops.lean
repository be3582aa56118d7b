import TipJar.Ledger.Accounts
import TipJar.Transfer.Split

/-! Work on drops.

A drop is created only if its initiator can spend its amount, and from then on
holds it. Every later change is a transition from one expected status: whoever
finds the drop in another one has lost it to somebody else, and changes nothing.
A drop is claimed before it is settled, and is settled, expired or failed only
once. -/
namespace TipJar.Ledger

def interruptedReason : String := "settlement_interrupted"

/-- The characters of a reason that are kept. -/
def reasonLimit : Nat := 200

structure DropRequest where
  initiator : Value
  token : String
  amount : Amount
  channel : String
  message : String
  openedAt : Moment
  deadline : Moment

/-- Creates a pending drop. The answer shows the moments as they were given. -/
def createDrop (r : DropRequest) : Work Drop := do
  if r.amount.units = 0 then Work.refuse (.malformed .emptyDrop)
  if ← Work.check ((r.deadline.noLater r.openedAt).mapError Fault.ofMoment) then
    Work.refuse (.malformed .deadlineNotLater)
  let _ ← checkAvailable r.initiator r.amount
  let initiator := r.initiator.text?.getD ""
  let drop : Drop ← Work.flushing do
    let id ← Work.freshId
    let openedAt ← Work.stored r.openedAt
    let deadline ← Work.stored r.deadline
    Work.column r.amount.units
    if ((← Work.tables).drop? id).isSome then Work.storeFails .violation
    let row : Drop :=
      { id, initiator, token := r.token, amount := r.amount, channel := r.channel,
        message := r.message, deadline, status := .known .pending, openedAt, claimedAt := none,
        finishedAt := none, event := none, participants := none, moved := none, reason := none }
    Work.write fun s => { s with drops := s.drops ++ [row] }
    return { row with deadline := r.deadline, openedAt := r.openedAt }
  Work.note .info "batch.reactdrop_repository" "reactdrop_created"
    [("reactdrop_id", .text drop.id.text), ("initiator", .text initiator),
     ("amount", .nat r.amount.units), ("deadline", .moment r.deadline)]
  return drop

/-- A drop as it is shown; a stored status that is none is found out here. -/
def readDrop (d : Drop) : Checked Drop := do
  let _ ← d.status.get "ReactdropStatus"
  return d

/-- The drop of an identifier, which must exist. -/
def getDrop (id : Uuid) : Work Drop := do
  match (← Work.tables).drop? id with
  | some d => Work.check (readDrop d)
  | none => Work.refuse (.dropNotFound id)

/-- Changes a drop that is in the expected status. -/
def transition (id : Uuid) (expected : Drop.Status) (change : Drop → Drop) : Work Drop := do
  match (← Work.tables).drop? id with
  | none => Work.refuse (.dropNotFound id)
  | some d =>
    if d.has expected then
      Work.write (·.updateDrop id change)
      return change d
    else Work.refuse (.alreadySettled id (d.status.text (·.text)))

/-- Claims a pending drop: from now on it is settling. -/
def claim (id : Uuid) (time : Moment) : Work Drop := do
  let claimedAt ← Work.stored time
  transition id .pending (·.asClaimed claimedAt)

def markSettled (id event : Uuid) (recipients : Nat) (moved : Amount) (time : Moment) :
    Work Drop := do
  let finishedAt ← Work.stored time
  Work.column moved.units
  transition id .settling (·.asSettled event recipients moved finishedAt)

/-- Marks a drop expired: nobody took part. -/
def markExpired (id : Uuid) (time : Moment) : Work Drop := do
  let finishedAt ← Work.stored time
  transition id .settling (·.asExpired finishedAt)

def markFailed (id : Uuid) (reason : String) (time : Moment) (participants : Option Int) :
    Work Drop := do
  let finishedAt ← Work.stored time
  if let some n := participants then Work.column n
  let kept := String.ofList (reason.toList.take reasonLimit)
  transition id .settling (·.asFailed kept participants finishedAt)

/-- The drops that are due, as far as the limit goes. -/
def findDue (asOf : Moment) (limit : Option Int) : Work (List Drop) := do
  let asOf ← Work.stored asOf
  if let some n := limit then Work.column n
  Work.read (·.due asOf limit)

/-- The drops claimed at least so many seconds ago and still settling. -/
def findStalled (asOf : Moment) (seconds : Value) : Work (List Drop) := do
  let length ← Work.check seconds.seconds
  let cutoff ← Work.check (Checked.inCalendar (asOf.sub? length))
  let cutoff ← Work.stored cutoff
  Work.read (·.stalled cutoff)

/-- Fails the drops whose settlement was interrupted. A drop that is still settling proves that
it was never paid out, since payment and status are written together. -/
def failStalled (asOf : Moment) (seconds : Value) : Work (List Drop) := do
  let stalled ← findStalled asOf seconds
  stalled.mapM fun d => do
    let failed ← markFailed d.id interruptedReason asOf none
    Work.note .error "batch.reactdrop_repository" "reactdrop_settlement_failed"
      [("reactdrop_id", .text d.id.text), ("reason", .text interruptedReason),
       ("initiator", .text d.initiator), ("amount", .nat d.amount.units)]
    return failed

end TipJar.Ledger
