import TipJar.Config.Active
import TipJar.Ledger.Queries
import TipJar.Operator.Arguments
import TipJar.Program.Sweeper

/-! The operator's tool.

One command is one unit of work on the tables of the active configuration. What it
prints is known only once the work is done; a request that is refused, or a value
that is not allowed, is printed as an error. -/
namespace TipJar.Operator

open Ledger (Desk Work)

/-- What a run of the tool leaves: its status and what it printed. -/
structure Outcome where
  status : Nat
  out : String
  err : String
deriving DecidableEq

/-- The status of a run whose arguments are not carried out. -/
def Rejection.status : Rejection → Nat
  | .usage => 2
  | .help => 0

/-! ### Texts -/

/-- A text filled up with blanks in front. -/
def padLeft (width : Nat) (s : String) : String :=
  String.ofList (List.replicate (width - s.length) ' ') ++ s

/-- A text filled up with blanks behind. -/
def padRight (width : Nat) (s : String) : String :=
  s ++ String.ofList (List.replicate (width - s.length) ' ')

/-- Lines, each ended. -/
def lines (ls : List String) : String := String.join (ls.map (· ++ "\n"))

/-- An amount with its ticker. -/
def written (ticker : String) (a : Amount) : Checked String :=
  Checked.ofArithmetic (a.format ticker)

/-- What is printed about a balance. -/
def balanceText (ticker : String) (b : Ledger.Balance) : Checked String := do
  return lines
    ["Account:   " ++ b.account, "Balance:   " ++ (← written ticker b.balance),
     "Held:      " ++ (← written ticker b.held), "Available: " ++ (← written ticker b.available)]

/-- An entry as one of an account's. -/
def entryText (ticker account : String) (e : Ledger.Entry) : Checked String := do
  let isOut := e.source == account
  return "  ".intercalate
    [e.recordedAt.secondText, if isOut then "OUT" else "IN ",
     padRight 9 (e.kind.text (·.text)), padLeft 24 (← written ticker e.amount),
     if isOut then e.destination else e.source, e.event.text]

/-- What is printed about the history of an account. -/
def historyText (ticker account : String) (entries : List Ledger.Entry) (f : Ledger.Store.Flow) :
    Checked String := do
  let rows ← entries.mapM (entryText ticker account)
  let total := "Sent " ++ (← written ticker f.sent) ++ ", received " ++
    (← written ticker f.received) ++ " over " ++ toString f.entries ++ " entries"
  return lines (rows ++ [total])

/-- The line printed about a drop. -/
def dropText (ticker : String) (d : Drop) : Checked String := do
  let reason := match d.reason with
    | some reason => if reason.isEmpty then "" else "  reason=" ++ reason
    | none => ""
  return "  ".intercalate
    [d.id.text, padRight 8 (d.status.text (·.text)), d.initiator, ← written ticker d.amount,
     "deadline=" ++ d.deadline.minuteText] ++ reason

/-- What is printed about drops. -/
def dropsText (ticker : String) (drops : List Drop) : Checked String := do
  if drops.isEmpty then return lines ["(none)"] else return lines (← drops.mapM (dropText ticker))

/-! ### Commands -/

/-- Creates the tables that are not there. -/
def createTables (desk : Desk) : Desk :=
  let desk := match desk.tables with
    | some _ => desk
    | none => { desk with tables := some .empty }
  desk.note .info "db.engine" "tables_created" [("dialect", .text "sqlite")] none

/-- The name of the kind of store that a location begins with. -/
def kindOf (url : Value) : String := ((url.text?.getD "").splitOn "://").headD ""

/-- A command as one unit of work: what it prints. -/
def Command.work (c : Config) (today : Moment) : Command → Work (Checked String)
  | createTables => do
    modifyThe Desk Operator.createTables
    return .ok (lines ["Tables created (" ++ kindOf c.database.url ++ ")"])
  | balance account => do
    return balanceText c.ledger.ticker (← Ledger.viewOf (.text account) none)
  | deposit account coins => do
    let amount ← Work.check (Amount.ofCoins (.text coins))
    let balance ← Ledger.deposit (.text account) amount
    return do
      return lines ["Deposited " ++ (← written c.ledger.ticker amount) ++ "; balance now " ++
        (← written c.ledger.ticker balance)]
  | history account limit => do
    let entries ← Ledger.historyOf (.text account) (some limit) none
    return historyText c.ledger.ticker account entries (← Ledger.flowOf (.text account))
  | blacklist account lift => do
    let info ← Ledger.setBlacklisted (.text account) (!lift)
    return .ok (lines [info.name ++ ": blacklisted=" ++ (Value.bool info.blacklisted).shown])
  | drops status limit => do
    return dropsText c.ledger.ticker (← Ledger.dropsOfStatus (.text status.text) (some limit))
  | stalled => do
    let found ← Ledger.findStalled today (.int c.scheduler.stalledAfter)
    return dropsText c.ledger.ticker (← Work.check (found.mapM Ledger.readDrop))

/-- Connects to the tables of a configuration that has just become active, which puts history under
guard. -/
def connect (c : Config) (trace : Log.Event) (desk : Desk) : Desk :=
  let desk := desk.note .info "config" trace.message trace.fields none
  let desk := desk.note .info "db.engine" "engine_initialized"
    [("dialect", .text "sqlite"), ("pool_size", .int c.database.poolSize),
     ("max_overflow", .int c.database.maxOverflow), ("echo", .bool c.database.echo)] none
  { desk with guarded := true }

/-- Carries a command out: what it prints. -/
def Command.run (c : Config) (today : Moment) (command : Command) (desk : Desk) :
    Checked String × Desk :=
  let (result, desk) := desk.commit (command.work c today)
  (result.bind id, desk)

/-- What is printed of a fault; some faults end the tool instead. -/
def errorText? (why : Fault) : Option String :=
  match why with
  | .refused r => some ("ERROR [" ++ r.category.code ++ "]: " ++ r.message)
  | .invalid why => some ("ERROR: " ++ why.message)
  | _ => none

/-- Runs the tool on a configuration and its tables. -/
def Request.run (r : Request) (c : Config) (trace : Log.Event) (today : Moment) (desk : Desk) :
    Checked Outcome × Desk :=
  let (result, desk) := r.command.run c today (connect c trace desk)
  match result with
  | .ok out => (.ok ⟨0, out, ""⟩, desk)
  | .error why =>
    match errorText? why with
    | some text => (.ok ⟨1, "", lines [text]⟩, desk)
    | none => (.error why, desk)

end TipJar.Operator
