import Std.Time.DateTime.Timestamp
import TipJar.Log.Channel
import TipJar.Operator.Basic
import TipJar.Time.Clock

/-! The operator's tool as a program.

The configuration is the one named by an option, else by the environment, else the
one that comes with the library. Tables are kept in memory for one run. All that
this module adds to the tool is the world around it: files, environment, clock and
streams. -/
namespace TipJar.Operator

/-- The variables of the environment that name a configuration and override its location. -/
def configVariable : String := "TIPLEDGER_CONFIG"

/-- The variable of the environment that names the place of the tables. -/
def locationVariable : String := "TIPLEDGER_DATABASE_URL"

/-- The day from which the machine counts its time. -/
def firstDay : Option Date := Date.of? 1970 1 1

/-- What the clock of the machine shows. -/
def machineTime : IO Moment := do
  let micros := (← Std.Time.Timestamp.now).toNanosecondsSinceUnixEpoch.toInt / 1000
  return (firstDay.bind fun d => Moment.of? (d.day * Duration.microsPerDay + micros) (some 0)).getD
    Clock.initial.time

/-- The text of a configuration file; none if there is no such file. -/
def readText (path : String) : IO (Option String) := do
  try return some (← IO.FS.readFile path)
  catch _ => return none

/-- The text of the configuration to use. -/
def configText (option : Option String) : IO (Checked String) := do
  let named := (← IO.getEnv configVariable).filter (!·.isEmpty)
  match option.or named with
  | none => return .ok Config.bundledText
  | some path =>
    match ← readText path with
    | some text => return .ok text
    | none => return .error (.noFile (Config.normalPath path))

/-- Says how the tool ended early. -/
def endWith (why : Fault) : IO UInt32 := do
  IO.eprintln (why.name ++ ": " ++ why.message)
  return 1

/-- Writes the lines that were logged, each with the time. -/
def writeLines (time : Moment) (lines : List (Nat × List (String × Value))) : IO Unit := do
  for (_, fields) in lines do
    match Log.lineText (Log.stamped time fields) with
    | .ok text => IO.eprintln text
    | .error _ => pure ()

/-- A desk at which nothing has happened. -/
def freshDesk (time : Moment) (level : Nat) : Ledger.Desk :=
  { tables := none, ids := .ofNat, nextId := 1, now := time, context := .empty, level, lines := [],
    guarded := true, spoiled := false }

def serve (request : Request) : IO UInt32 := do
  let time ← machineTime
  let location ← IO.getEnv locationVariable
  let text ← configText request.config
  let prepared : Checked (Config × Log.Event × Nat) := do
    let (config, trace) ← Config.activate (← text) location
    let level ← Log.Channel.levelNumber (.text (request.logLevel.getD config.logging.level))
    return (config, trace, level)
  match prepared with
  | .error why => endWith why
  | .ok (config, trace, level) =>
    let (result, desk) := request.run config trace time (freshDesk time level)
    writeLines time desk.lines
    match result with
    | .error why => endWith why
    | .ok outcome =>
      IO.print outcome.out
      IO.eprint outcome.err
      return outcome.status.toUInt32

end TipJar.Operator

/-- Reads the arguments and runs what they ask for. -/
def main (args : List String) : IO UInt32 := do
  match TipJar.Operator.Request.read args with
  | .ok request => TipJar.Operator.serve request
  | .error why =>
    IO.eprintln "usage: [--config FILE] [--log-level LEVEL] COMMAND ..."
    return why.status.toUInt32
