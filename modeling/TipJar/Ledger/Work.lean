import TipJar.Ledger.Store
import TipJar.Log.Line

/-! Units of work.

Work is done at a desk: the tables, a clock, the identifiers that lines are
stamped with, and the lines written so far. A unit of work changes all of the
tables or, when it fails, none of them; lines and used-up identifiers stay. A
failure of the store itself is reported as a refusal that names the operation,
so callers need not know how the tables are kept. -/
namespace TipJar.Ledger

/-- What work is done with. -/
structure Desk where
  /-- The tables; none when they were never created or were dropped. -/
  tables : Option Store
  /-- Identifiers in the order in which they are handed out. Nothing keeps them from being in use
  already. -/
  ids : Nat → Uuid
  /-- The number of the next identifier to be handed out. -/
  nextId : Nat
  now : Moment
  context : Log.Context
  /-- The least grave level that is written. -/
  level : Nat
  /-- The lines written, with their levels. -/
  lines : List (Nat × List (String × Value))
  /-- Whether changes of history are refused. -/
  guarded : Bool
  /-- Whether a failed write has ended the unit of work, so that nothing more can be done in it. -/
  spoiled : Bool

/-- Work at a desk, which may fail and leaves the desk changed either way. -/
abbrev Work := ExceptT Fault (StateM Desk)

namespace Work

/-- Fails with a refusal. -/
def refuse {α : Type} (why : Refusal) : Work α := throw (.refused why)

/-- A failure of the store. -/
def storeFails {α : Type} (why : StoreFault) : Work α := throw (.store why)

/-- A check that needs no desk. -/
def check {α : Type} (x : Checked α) : Work α :=
  match x with
  | .ok a => pure a
  | .error why => throw why

/-- The tables as they are. -/
def tables : Work Store := do
  let desk ← getThe Desk
  if desk.spoiled then storeFails .spoiled
  match desk.tables with
  | some store => return store
  | none => storeFails .unreachable

/-- Reads from the tables. -/
def read {α : Type} (f : Store → α) : Work α := do return f (← tables)

/-- Changes the tables. -/
def write (f : Store → Store) : Work Unit := do
  let store ← tables
  modifyThe Desk fun desk => { desk with tables := some (f store) }

def freshId : Work Uuid := do
  let desk ← getThe Desk
  set { desk with nextId := desk.nextId + 1 }
  return desk.ids desk.nextId

/-- What the clock of the desk shows. -/
def now : Work Moment := do return (← getThe Desk).now

end Work

/-- Writes a line, if its level is written at all. -/
def Desk.note (desk : Desk) (level : Log.Level) (part message : String)
    (fields : List (String × Value)) (failure : Option Failure) : Desk :=
  if level.number < desk.level then desk
  else
    let event : Log.Event := { Log.Event.of level part message fields with failure }
    { desk with lines := desk.lines ++ [(level.number, event.line desk.context)] }

def Work.note (level : Log.Level) (part message : String) (fields : List (String × Value)) :
    Work Unit :=
  modifyThe Desk fun desk => desk.note level part message fields none

/-- Work during which some identifiers are bound. They are what they were before once it ends, in
whatever way it ends. -/
def Work.within {α : Type} (changes : List (Log.Field × String)) (work : Work α) : Work α :=
  fun desk =>
    let (result, after) := work { desk with context := desk.context.putAll changes }
    (result, { after with context := after.context.restore desk.context (changes.map (·.1)) })

/-- Work that ends the unit of work when it fails, as a write does that the tables refuse. -/
def Work.flushing {α : Type} (work : Work α) : Work α :=
  fun desk =>
    match work desk with
    | (.error why, after) => (.error why, { after with spoiled := true })
    | done => done

/-- Does a unit of work: its changes stay if it succeeds, and none of them if it fails. -/
def Desk.commit {α : Type} (desk : Desk) (work : Work α) : Checked α × Desk :=
  match work { desk with spoiled := false } with
  | (.ok a, after) =>
    if after.spoiled then
      (.error (.store .spoiled), { after with tables := desk.tables, spoiled := false })
    else (.ok a, after)
  | (.error why, after) => (.error why, { after with tables := desk.tables, spoiled := false })

/-- Does a unit of work under the name of an operation, which a failure of the store reports. -/
def Desk.transact {α : Type} (desk : Desk) (operation : String) (work : Work α) :
    Checked α × Desk :=
  match desk.commit work with
  | (.error (.store cause), after) =>
    (.error (.refused (.unsaved operation cause)),
      after.note .error "db.units" "unit_of_work_failed"
        [("operation", .text operation), ("error", .text cause.name)] none)
  | done => done

/-- A number as it goes into a column. -/
def Work.column (n : Int) : Work Unit := do
  let _ ← Work.tables
  if columnMax < n ∨ n < -columnMax - 1 then throw (.beyond .stored)

/-- A moment as it goes into a column: read in universal time. -/
def Work.stored (m : Moment) : Work Moment :=
  match if m.isNaive then none else m.toUtc? with
  | some utc => pure utc
  | none => storeFails .unwritable

end TipJar.Ledger
