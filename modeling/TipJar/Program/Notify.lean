import TipJar.Ledger.Accounts
import TipJar.Program.Basic
import TipJar.Transfer.Split

/-! Telling people about a transfer.

A transfer is announced once it is committed, and nothing that goes wrong here
can undo it. One recipient is named in the announcement, several are counted; who
wants to be told directly is. Every message is bounded in time and sent once, and
a message that fails is reported, never an error. -/
namespace TipJar

/-- A message that did not go through. -/
structure Undelivered where
  target : String
  /-- `public` or `direct`. -/
  channel : String
  reason : String
deriving DecidableEq

/-- What became of the messages about one transfer. -/
structure DeliveryReport where
  event : Uuid
  attempted : Nat
  delivered : Nat
  failures : List Undelivered

/-- Whether every message went through. -/
def DeliveryReport.isComplete (r : DeliveryReport) : Bool := r.failures.isEmpty

/-- The report of messages sent, each of which went through or did not. -/
def DeliveryReport.ofSends (event : Uuid) (sends : List (Option Undelivered)) : DeliveryReport :=
  { event, attempted := sends.length, delivered := sends.countP (·.isNone),
    failures := sends.filterMap id }

/-- Who tells people, and how. -/
structure Notifier where
  ticker : String
  /-- The seconds that a message may take. -/
  limit : Binary64
  /-- Whether preferences are looked up in the ledger. Otherwise nobody has chosen. -/
  remembers : Bool

/-- The seconds that a message may take unless configured otherwise. -/
def Notifier.defaultLimit : Binary64 := .ofInt 10

/-- What each recipient has chosen; a choice that is none is found out when it is looked at. -/
abbrev Preferences := String → Checked (Option Preference)

namespace Notifier

/-- The part of the program that lines of this module are from. -/
def part : String := "services.notification_dispatcher"

/-- How reports name the channel of the command. -/
def publicChannel : String := "public"

/-- How reports name a message to one account. -/
def directChannel : String := "direct"

/-- The reason that is kept for a message that failed. -/
def reasonOf : CallFault → String
  | .timeout _ => "timeout"
  | why => why.told

/-- Sends a message: the answer, or why it did not go through. -/
def send (n : Notifier) (target channel : String) (c : Call) :
    Program (Except Undelivered c.Reply) := do
  match ← Program.tryCall c (some n.limit) with
  | .ok reply => return .ok reply
  | .error why =>
    let failure : Undelivered := ⟨target, channel, reasonOf why⟩
    Program.note .warning part "notification_delivery_failed"
      [("target", .text target), ("channel_kind", .text channel), ("reason", .text failure.reason),
       ("error_code", .text Category.deliveryFailure.code)]
    return .error failure

/-- Posts a public message: its name, or why it was not posted. -/
def post (n : Notifier) (channel text : String) : Program (Except Undelivered String) :=
  n.send channel publicChannel (.post channel text)

/-- What failed, if anything did. -/
def failureOf {α : Type} : Except Undelivered α → Option Undelivered
  | .ok _ => none
  | .error failure => some failure

/-- Tells a recipient directly. -/
def tell (n : Notifier) (recipient sender : String) (share : Amount) :
    Program (Option Undelivered) := do
  let amount ← Program.check (Checked.ofArithmetic (share.format n.ticker))
  let text := "You just got tipped " ++ amount ++ " from " ++ sender ++ "!"
  return failureOf (← n.send recipient directChannel (.tell recipient text))

/-- The plain name of an account; its own if the platform has none to give. -/
def nameOf (n : Notifier) (account : String) : Program String := do
  match ← Program.tryCall (.name account) (some n.limit) with
  | .ok name => return name
  | .error _ => return account

/-- How the only recipient is named in public. -/
def targetOf (n : Notifier) (recipient : String) (plan : Delivery) : Program String := do
  if plan.mention then Program.mention recipient
  else return "\x60" ++ (← n.nameOf recipient) ++ "\x60"

/-- Tells the only recipient. -/
def notifyOne (n : Notifier) (r : Transfer.Receipt) (channel recipient : String)
    (preferences : Preferences) : Program (List (Option Undelivered)) := do
  let plan := Delivery.of (← Program.check (preferences recipient))
  let amount ← Program.check (Checked.ofArithmetic (r.moved.format n.ticker))
  let sender ← Program.mention r.source
  let target ← n.targetOf recipient plan
  let posted ← n.post channel (sender ++ " just tipped " ++ target ++ " " ++ amount ++ "!")
  if plan.direct then return [failureOf posted, ← n.tell recipient sender r.share]
  else return [failureOf posted]

/-- Tells those among several recipients who want to be told directly. -/
def tellEach (n : Notifier) (sender : String) (share : Amount) (preferences : Preferences) :
    List String → Program (List (Option Undelivered))
  | [] => return []
  | recipient :: rest => do
    let plan := Delivery.of (← Program.check (preferences recipient))
    if plan.direct then
      let told ← n.tell recipient sender share
      return told :: (← n.tellEach sender share preferences rest)
    else n.tellEach sender share preferences rest

/-- Tells several recipients. -/
def notifyMany (n : Notifier) (r : Transfer.Receipt) (channel : String)
    (preferences : Preferences) : Program (List (Option Undelivered)) := do
  let sender ← Program.mention r.source
  let total ← Program.check (Checked.ofArithmetic (r.moved.format n.ticker))
  let count := toString r.destinations.length
  let posted ← n.post channel (sender ++ " just tipped " ++ total ++ " to " ++ count ++ " users!")
  return failureOf posted :: (← n.tellEach sender r.share preferences r.destinations)

/-- Nobody has chosen. -/
def unset : Preferences := fun _ => .ok none

/-- The preferences of recipients. When they cannot be read, nobody has chosen. -/
def preferencesFor (n : Notifier) (recipients : List String) : Program Preferences := do
  if !n.remembers then return unset
  match ← (Program.transact "load_notification_preferences"
      (Ledger.preferencesOf recipients)).attempt with
  | .ok found => return fun name => .ok ((found.find? (·.1 == name)).bind (·.2))
  | .error (.refused (.unsaved ..)) =>
    Program.note .warning part "notification_preferences_unavailable"
      [("recipients", .nat recipients.length)]
    return unset
  | .error why => Program.fail why

/-- Tells everybody about a transfer. Preferences are looked up unless they are given. -/
def notify (n : Notifier) (r : Transfer.Receipt) (channel : String)
    (preferences : Option Preferences) : Program DeliveryReport := do
  let preferences ← match preferences with
    | some given => pure given
    | none => n.preferencesFor r.destinations
  let sends ← match r.destinations with
    | [recipient] => n.notifyOne r channel recipient preferences
    | _ => n.notifyMany r channel preferences
  let report := DeliveryReport.ofSends r.event sends
  Program.note .info part "settlement_notified"
    [("event_id", .text r.event.text), ("attempted", .nat report.attempted),
     ("delivered", .nat report.delivered), ("failed", .nat report.failures.length)]
  return report

end Notifier
end TipJar
