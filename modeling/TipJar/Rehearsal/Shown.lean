import TipJar.Ledger.Queries
import TipJar.Program.Audit
import TipJar.Program.Sweeper
import TipJar.Rehearsal.Labels

/-! Results as they are shown.

A result is a record of its fields in which identifiers are still identifiers.
They get their labels when the result is written out, in the order in which they
stand. -/
namespace TipJar.Rehearsal

/-- A result that may hold identifiers. -/
inductive Shown
  | value (v : Value)
  | id (kind : LabelKind) (u : Uuid)
  | list (items : List Shown)
  | record (fields : List (String × Shown))

namespace Shown

instance : Inhabited Shown := ⟨.value .null⟩

mutual

/-- Writes a result out. -/
def written : Shown → StateM Labels Value
  | value v => do return (← get).inValue v
  | id kind u => do return .text (← Labels.label kind u)
  | list items => do return .list (← writtenItems items)
  | record fields => do return .map (← writtenFields fields)

/-- The elements of a list, written in order. -/
def writtenItems : List Shown → StateM Labels (List Value)
  | [] => return []
  | item :: items => do
    let first ← written item
    return first :: (← writtenItems items)

/-- The fields of a record, written in order. -/
def writtenFields : List (String × Shown) → StateM Labels (List (Scalar × Value))
  | [] => return []
  | (name, field) :: fields => do
    let first ← written field
    return (.text name, first) :: (← writtenFields fields)

end

/-! ### Simple results -/

def nothing : Shown := value .null
def text (s : String) : Shown := value (.text s)
def nat (n : Nat) : Shown := value (.nat n)
def bool (b : Bool) : Shown := value (.bool b)
def amount (a : Amount) : Shown := value (.amount a)
def moment (m : Moment) : Shown := value (.moment m)
def event (u : Uuid) : Shown := id .event u

/-- A result or nothing. -/
def optional {α : Type} (f : α → Shown) (x : Option α) : Shown := (x.map f).getD nothing

/-- A list of results of one form. -/
def each {α : Type} (f : α → Shown) (xs : List α) : Shown := list (xs.map f)

/-- Texts, one after another. -/
def texts (xs : List String) : Shown := each text xs

/-! ### Results of the ledger -/

def balance (b : Ledger.Balance) : Shown := record
  [("account_id", text b.account), ("balance", amount b.balance), ("held", amount b.held),
   ("available", amount b.available)]

/-- The name of a preference, if there is one. -/
def preference (p : Option Preference) : Shown := optional (text ·.text) p

/-- The fields that an account tells about itself. -/
def account (a : Ledger.AccountInfo) : Shown := record
  [("account_id", text a.name), ("balance", amount a.balance),
   ("notification_preference", preference a.preference), ("blacklisted", bool a.blacklisted)]

/-- The balances of several accounts, by name. -/
def balances (accounts : List Ledger.Account) : Shown :=
  record (accounts.map fun a => (a.name, amount a.balance))

/-- Preferences by account. -/
def preferences (ps : List (String × Option Preference)) : Shown :=
  record (ps.map fun (name, p) => (name, preference p))

/-- What an account sent and received. -/
def flow (who : Value) (f : Ledger.Store.Flow) : Shown := record
  [("account_id", value who), ("sent", amount f.sent), ("received", amount f.received),
   ("entry_count", nat f.entries)]

def entry (e : Ledger.Entry) : Shown := record
  [("event_id", event e.event), ("line_no", value (.int e.line)),
   ("kind", text (e.kind.text (·.text))), ("source", text e.source),
   ("destination", text e.destination), ("amount", amount e.amount),
   ("recorded_at", moment e.recordedAt)]

def receipt (r : Transfer.Receipt) : Shown := record
  [("event_id", event r.event), ("source", text r.source), ("destinations", texts r.destinations),
   ("kind", text r.kind.text), ("requested_total", amount r.requested), ("share", amount r.share),
   ("moved_total", amount r.moved), ("remainder", amount r.remainder),
   ("settled_at", moment r.settledAt), ("recipient_count", nat r.destinations.length),
   ("was_adjusted", bool r.isAdjusted)]

def drop (d : Drop) : Shown := record
  [("reactdrop_id", id .drop d.id), ("initiator", text d.initiator),
   ("trigger_token", text d.token), ("amount", amount d.amount), ("channel_ref", text d.channel),
   ("message_ref", text d.message), ("deadline", moment d.deadline),
   ("status", text (d.status.text (·.text))), ("opened_at", moment d.openedAt),
   ("claimed_at", optional moment d.claimedAt), ("finished_at", optional moment d.finishedAt),
   ("event_id", optional event d.event),
   ("participant_count", optional (fun n => value (.int n)) d.participants),
   ("moved_total", optional amount d.moved), ("failure_reason", optional text d.reason)]

/-- All rows of all tables. -/
def store (accounts : List Ledger.AccountInfo) (entries : List Ledger.Entry) (drops : List Drop) :
    Shown :=
  let row (a : Ledger.AccountInfo) := list
    [text a.name, amount a.balance, preference a.preference, bool a.blacklisted]
  record [("accounts", each row accounts), ("entries", each entry entries),
    ("reactdrops", each drop drops)]

/-- All rows of all tables in short form. -/
def brief (s : Ledger.Store) : Shown :=
  let units (a : Amount) := (Value.amount a).shown
  texts (s.accountsByName.map (fun a =>
      "<Account " ++ a.name ++ " balance=" ++ units a.balance ++ ">") ++
    s.entriesByLine.map (fun e =>
      "<LedgerEntry " ++ e.source ++ "->" ++ e.destination ++ " " ++ units e.amount ++ ">") ++
    s.dropsById.map (fun d =>
      "<Reactdrop " ++ d.id.text ++ " " ++ d.status.text (·.text) ++ " " ++ units d.amount ++ ">"))

/-! ### Results of programs -/

/-- The fields of a message that did not arrive. -/
def undelivered (u : Undelivered) : Shown := record
  [("target", text u.target), ("channel_kind", text u.channel), ("reason", text u.reason)]

def delivery (r : DeliveryReport) : Shown := record
  [("event_id", event r.event), ("attempted", nat r.attempted), ("delivered", nat r.delivered),
   ("failures", each undelivered r.failures), ("ok", bool r.isComplete)]

/-- A public message that was posted or was not. -/
def posted (r : Except Undelivered String) : Shown :=
  match r with
  | .ok message => record [("message", text message), ("failure", nothing)]
  | .error failure => record [("message", nothing), ("failure", undelivered failure)]

def tip (t : Tip) : Shown := record
  [("settlement", receipt t.receipt), ("delivery", delivery t.delivery)]

def started (s : DropStarted) : Shown := record
  [("reactdrop", drop s.drop), ("announcement", text s.announcement)]

/-- What happened to one drop. -/
def outcome (r : Drop.Result) : List (String × Shown) :=
  [("outcome", text r.outcome.text), ("reason", optional text r.reason),
   ("settlement", optional receipt r.receipt)]

/-- The results of a sweep and their counts. -/
def sweep (s : Drop.Sweep) : Shown :=
  let t := s.tally
  record
    [("started_at", moment s.startedAt),
     ("results", each (fun r => record (("id", id .drop r.drop) :: outcome r)) s.results),
     ("interrupted_failed", nat s.interrupted), ("settled", nat t.settled),
     ("expired", nat t.expired), ("failed", nat t.failed), ("skipped", nat t.skipped),
     ("processed", nat t.processed)]

/-- The figures and conclusions of a report. -/
def supply (r : Supply.Report) (ticker : String) : Checked (List (String × Value)) := do
  let text ← Checked.ofArithmetic (r.text ticker)
  return [("is_covered", .bool r.isCovered), ("surplus", .amount r.surplus),
    ("shortfall", .amount r.shortfall), ("text", .text text)]

/-- The figures of the report and its text. -/
def audit (a : Supply.Audit) (ticker : String) : Checked Shown := do
  let wallet := Value.record
    [("wallet_balance", .amount a.report.wallet.balance),
     ("block_height", .ofOption .int a.report.wallet.height),
     ("staking_supply", .ofOption .amount a.report.wallet.staking)]
  return value (.record
    ([("generated_at", .moment a.madeAt), ("wallet", wallet),
      ("custodial_total", .amount a.report.custodial), ("account_count", .int a.report.accounts)] ++
     (← supply a.report ticker)))

end Shown

/-- A fault as it is told: its name, its text, and for refusals their code. -/
def told (why : Fault) : List (String × Value) :=
  let extra := match why with
    | .refused (.unsaved operation _) =>
      [("code", Value.text Category.persistenceFailure.code), ("operation", Value.text operation)]
    | .refused r => [("code", Value.text r.category.code)]
    | _ => []
  [("error", Value.text why.name)] ++
    (why.message?.map fun m => ("message", Value.text m)).toList ++ extra

end TipJar.Rehearsal
