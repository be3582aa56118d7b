import TipJar.Operator.Basic
import TipJar.Program.Switch
import TipJar.Rehearsal.Platform
import TipJar.Rehearsal.Shown
import TipJar.Time.Clock
import TipJar.Wiring

/-! The state of a rehearsal.

A rehearsal plays steps on one ledger, one after another, against a platform that
answers as told. Hooks let other steps be played at the very moment of a call: so a
race is replayed as it is told, and not as chance has it. -/
namespace TipJar.Rehearsal

/-- One step of a unit of work, and the operation it is named for. -/
structure Part where
  operation : String
  work : StateM Labels (Ledger.Work Shown)

/-- When the background loop of the sweeper is stopped. -/
inductive Patience
  /-- Once so many sweeps have ended. -/
  | sweeps (count : Nat)
  /-- Once so many lookups have begun in the rehearsal. -/
  | lookups (count : Nat)
  /-- At once. -/
  | none

/-- What can be played. -/
inductive Step
  /-- A unit of work of its own. -/
  | work (part : Part)
  /-- Several steps in one unit of work. A fault of a step that catches it does not end the unit. -/
  | together (parts : List (Part × Bool)) (rollback : Bool)
  /-- A program; `watched` says whether it heeds the request to stop sweeping. -/
  | program (watched : Bool) (p : Wiring → Labels → Program Shown × Labels)
  | moveClock (move : Clock → Checked Clock)
  | setPlatform (change : Platform → Platform)
  | createTables
  | dropTables
  /-- Puts history under guard, or no longer. -/
  | guard (up : Bool)
  /-- Runs the background loop. -/
  | loop (patience : Patience) (limit : Value)
  | stop
  | requestStop
  /-- Runs the operator's tool. -/
  | operate (args : List String)

/-- Steps played when a kind of call is made for the n-th time. -/
structure Hook where
  word : String
  count : Nat
  steps : List Step

/-- What does not change during a rehearsal. -/
structure Setting where
  config : Config
  wiring : Wiring
  hooks : List Hook
  /-- What the wallet answers; there may be none. -/
  wallet : Option (Checked Supply.Figures)
  /-- Whether answers show the lines that were written. -/
  showsLines : Bool
  /-- What the clock of the operator's machine shows. -/
  today : Moment

/-- When a lookup stops the loop, and how long the stop waits. -/
structure Watch where
  lookups : Nat
  limit : Binary64

/-- What changes during a rehearsal. -/
structure Session where
  desk : Ledger.Desk
  platform : Platform
  labels : Labels
  /-- The calls made, by their words. -/
  calls : List String
  /-- How many public messages have been posted. -/
  posted : Nat
  /-- The calls recorded during the step that is being played. -/
  sent : List (List String)
  /-- The hooks that ran during the step that is being played. -/
  ran : List Value
  /-- What starts and stops of the sweeper have left behind. -/
  switch : Sweeper.Switch
  /-- Stops asked for by hooks and still to be confirmed, with the identifiers then in force. -/
  unconfirmed : List Log.Context
  watch : Option Watch

namespace Session

/-- Runs part of a step on the desk. -/
def atDesk {α : Type} (f : Ledger.Desk → α × Ledger.Desk) : StateM Session α := fun s =>
  let (a, desk) := f s.desk
  (a, { s with desk })

/-- Looks labels up, or gives them. -/
def withLabels {α : Type} (x : StateM Labels α) : StateM Session α := fun s =>
  let (a, labels) := x s.labels
  (a, { s with labels })

/-- A fault as it is told, with labels in the place of identifiers. -/
def tell (why : Fault) : StateM Session (List (String × Value)) := do
  let labels := (← get).labels
  return (told why).map fun (name, v) => (name, labels.inValue v)

/-- Confirms the stops that hooks asked for. -/
def confirmStops : StateM Session Unit := modify fun s =>
  let desk := s.unconfirmed.foldl (fun (desk : Ledger.Desk) context =>
    let noted := ({ desk with context }).note .info Sweeper.part "scheduler_stopped" [] none
    { noted with context := desk.context }) s.desk
  { s with desk, unconfirmed := [] }

/-- The fields of a line that answers show. -/
def shownLine (labels : Labels) (fields : List (String × Value)) : Value :=
  let unsaved := fields.any fun (name, v) =>
    name == "exc_type" && v.text? == some Category.persistenceFailure.name
  let hidden := ["ts", "traceback", "config_path", "checksum"] ++
    (if unsaved then ["exc_message", "exc_reason"] else [])
  let cut (v : Value) : Value :=
    match v.text? with
    | some s =>
      let word := Category.persistenceFailure.name
      if (word ++ ":").toList.isPrefixOf s.toList then .text word else v
    | none => v
  labels.inValue (.record
    ((fields.filter fun (name, _) => !hidden.contains name).map fun (name, v) =>
      (name, if name == "error" then cut v else v)))

end Session
end TipJar.Rehearsal
