import TipJar.Drop.Schedule
import TipJar.Ledger.Drops
import TipJar.Ledger.Transfers
import TipJar.Program.Notify

/-! The commands.

Every command checks before it changes anything: first whether its author may act
at all, then the least amount, then what is particular to it, and last the balance.
A tip is one unit of work, and people are told once it is committed. A drop is
announced before its row is written, since the row names the announcement. -/
namespace TipJar

/-- Executes a transfer of at least an amount, perhaps leaving out the hold of one drop. -/
abbrev Executor := Transfer.Intent → Amount → Option Uuid → Ledger.Work Transfer.Receipt

/-- What the commands are set up with. -/
structure Tipping where
  notifier : Notifier
  minimumTip : Amount
  minimumRoleTip : Amount
  minimumDrop : Amount
  /-- The hours a drop may last. -/
  maxHours : Int
  execute : Executor

/-- A tip that took place, and what became of the messages about it. -/
structure Tip where
  receipt : Transfer.Receipt
  delivery : DeliveryReport

/-- A drop that was started, and its announcement. -/
structure DropStarted where
  drop : Drop
  announcement : String

namespace Tipping

/-- The part of the program that lines of this module are from. -/
def part : String := "services.tipping"

/-- Runs a command of an author under an identifier of its own. -/
def asRequest {α : Type} (author : String) (command : Program α) : Program α := do
  let request ← Program.freshId
  Program.within [(.request, request.text), (.account, author)] command

/-- Refuses an author who may not act. -/
def requireAllowed (author : String) : Program Unit :=
  Program.transact "check_blacklist" (Ledger.requireAllowed (.text author))

/-- Refuses an amount below the least of a command. -/
def requireMinimum (amount minimum : Amount) : Program Unit :=
  if amount < minimum then Program.fail (.refused (.belowMinimum amount minimum)) else return ()

/-- The operation that executes a tip. -/
def operationOf (kind : Transfer.Kind) : String := kind.text ++ "_tip"

/-- Executes a transfer, then tells everybody. -/
def settle (t : Tipping) (i : Transfer.Intent) (channel : String) (minimum : Amount) :
    Program Tip := do
  let receipt ← Program.transact (operationOf i.kind) (t.execute i minimum none)
  let delivery ← t.notifier.notify receipt channel none
  return ⟨receipt, delivery⟩

def tipAccount (t : Tipping) (author channel recipient : String) (amount : Amount) : Program Tip :=
  asRequest author do
    requireAllowed author
    requireMinimum amount t.minimumTip
    t.settle ⟨author, [recipient], amount, .direct⟩ channel t.minimumTip

/-- Splits a tip among the members of a role, the author left out. -/
def tipRole (t : Tipping) (author channel role : String) (amount : Amount) : Program Tip :=
  asRequest author do
    requireAllowed author
    requireMinimum amount t.minimumRoleTip
    let members ← Program.call (.members role) none
    t.settle ⟨author, Drop.eligible members author, amount, .role⟩ channel t.minimumRoleTip

/-- Posts the announcement of a drop: the name of the message. -/
def announce (t : Tipping) (channel text : String) : Program String := do
  match ← t.notifier.post channel text with
  | .ok message => return message
  | .error failure =>
    Program.fail (.refused (.undelivered channel Notifier.publicChannel failure.reason))

/-- Reacts to the announcement first. Participants can do so themselves when it fails. -/
def seed (channel message token : String) : Program Unit := do
  match ← Program.tryCall (.react channel message token) none with
  | .ok _ => return ()
  | .error why =>
    Program.note .warning part "reactdrop_seed_reaction_failed"
      [("message_ref", .text message), ("error", .text why.told)]

/-- Writes the row of a drop; a drop that is refused leaves its announcement behind. -/
def keep (r : Ledger.DropRequest) : Program Drop := do
  match ← (Program.transact "create_reactdrop" (Ledger.createDrop r)).attempt with
  | .ok drop => return drop
  | .error why =>
    if let .refused refusal := why then
      Program.note .warning part "reactdrop_announcement_orphaned"
        [("message_ref", .text r.message), ("error_code", .text refusal.category.code)]
    Program.fail why

def startDrop (t : Tipping) (author channel token : String) (amount : Amount)
    (duration unit : Value) : Program DropStarted :=
  asRequest author do
    requireAllowed author
    requireMinimum amount t.minimumDrop
    let openedAt ← Program.now
    let deadline ← Program.check (Drop.deadlineFor openedAt duration unit (.int t.maxHours))
    if !(← Program.call (.usable channel token) none) then
      Program.fail (.refused (.invalidToken token))
    let _ ← Program.transact "check_reactdrop_funds" (Ledger.checkAvailable (.text author) amount)
    let written ← Program.check (Checked.ofArithmetic (amount.format t.notifier.ticker))
    let text := Drop.announcement written token (deadline.since openedAt)
    let message ← t.announce channel text
    seed channel message token
    let drop ← keep
      { initiator := .text author, token, amount, channel, message, openedAt, deadline }
    return ⟨drop, text⟩

/-- The balance of an account, which is opened if there is none. -/
def balance (who : Value) : Program Ledger.Balance :=
  Program.transact "balance_view" (Ledger.viewOf who none)

def setPreference (who preference : Value) : Program Ledger.AccountInfo :=
  Program.transact "set_notification_preference" (Ledger.setPreference who preference)

end Tipping
end TipJar
