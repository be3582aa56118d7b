import TipJar.Log.Context
import TipJar.Log.Level
import TipJar.Value.Json

/-! Log lines.

A line is one JSON object: level, logger and message, then the identifiers in
force, then the fields of the event that are not there yet, then what is known of
a fault. Fault fields replace event fields of the same name in their place. -/
namespace TipJar.Log

/-- The names that belong to the bookkeeping of a record and are never written. -/
def ownNames : List String :=
  ["name", "msg", "args", "levelname", "levelno", "pathname", "filename", "module", "exc_info",
   "exc_text", "stack_info", "lineno", "funcName", "created", "msecs", "relativeCreated", "thread",
   "threadName", "processName", "process", "message", "taskName"]

/-- Whether the field of an event may not bear a name: a record has it already. -/
def isReserved (name : String) : Bool :=
  name == "asctime" || (name != "taskName" && ownNames.contains name)

structure Event where
  level : String
  logger : String
  message : String
  fields : List (String × Value)
  failure : Option Failure

/-- The first part of every logger's name. -/
def loggerRoot : String := "tip_kernel"

/-- An event of a part of the library. -/
def Event.of (level : Level) (part message : String) (fields : List (String × Value)) : Event :=
  ⟨level.text, loggerRoot ++ "." ++ part, message, fields, none⟩

/-- Adds a field unless there is one of its name. -/
def addField (fields : List (String × Value)) (name : String) (value : Value) :
    List (String × Value) :=
  if fields.any (·.1 == name) then fields else fields ++ [(name, value)]

/-- Sets a field, in its place if there is one of its name. -/
def setField (fields : List (String × Value)) (name : String) (value : Value) :
    List (String × Value) :=
  if fields.any (·.1 == name) then
    fields.map fun (n, v) => if n == name then (n, value) else (n, v)
  else fields ++ [(name, value)]

/-- The fields that describe a fault. -/
def failureFields (f : Failure) : List (String × Value) :=
  [("exc_type", .text f.name), ("exc_message", .text f.message)] ++
    (f.code.map fun code => ("exc_code", Value.text code)).toList ++
    f.fields.map fun (name, value) => ("exc_" ++ name, value)

/-- The fields of a line but for the time, in the order in which they are written. -/
def Event.line (e : Event) (c : Context) : List (String × Value) :=
  let head := [("level", Value.text e.level), ("logger", Value.text e.logger),
    ("message", Value.text e.message)]
  let stamped :=
    c.toList.foldl (fun fields (name, value) => setField fields name (.text value)) head
  let own := e.fields.filter fun (name, _) => name != "ts" && !ownNames.contains name
  let described := own.foldl (fun fields (name, value) => addField fields name value) stamped
  match e.failure with
  | none => described
  | some f =>
    (failureFields f).foldl (fun fields (name, value) => setField fields name value) described

def lineText (fields : List (String × Value)) : Checked String :=
  (Value.record fields).json .log

/-- The fields of a line with the time at which it is written, which comes first. -/
def stamped (time : Moment) (fields : List (String × Value)) : List (String × Value) :=
  ("ts", .text time.isoText) :: fields

/-- An event as the text of a line that is written at a moment. -/
def Event.format (e : Event) (c : Context) (time : Moment) : Checked String :=
  lineText (stamped time (e.line c))

end TipJar.Log
