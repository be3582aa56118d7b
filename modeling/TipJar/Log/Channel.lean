import TipJar.Log.Line
import TipJar.Log.Template

/-! The channel on which lines are written.

A channel is set up once; setting it up again changes nothing until it is reset.
It writes the lines that are at least as grave as its level. -/
namespace TipJar.Log

/-- The channel and the identifiers in force. -/
structure Channel where
  configured : Bool
  handlers : Nat
  level : Nat
  context : Context

namespace Channel

def fresh : Channel := ⟨false, 0, inherited, .empty⟩

/-- The number of a level given by name or number. -/
def levelNumber : Value → Checked Nat
  | .scalar (.int i) => .ok i.toNat
  | .scalar (.bool b) => .ok (if b then 1 else 0)
  | v =>
    match v.text? with
    | some name =>
      match levelOf? name with
      | some n => .ok n
      | none => .error (.invalid (.unknownLevel v.shown))
    | none => .error (.mismatch (.notLevel v.shown))

/-- Sets the channel up unless it is. A level that is none leaves it without a handler, yet set
up. -/
def configure (c : Channel) (level : Value) : Checked Unit × Channel :=
  if c.configured then (.ok (), c)
  else match levelNumber level with
    | .ok n => (.ok (), { c with configured := true, handlers := c.handlers + 1, level := n })
    | .error why => (.error why, { c with configured := true })

/-- Takes all handlers away. -/
def reset (c : Channel) : Channel :=
  { c with configured := false, handlers := 0, level := inherited }

/-- Whether lines of a level are written. -/
def isOpen (c : Channel) (level : Nat) : Bool :=
  (if c.level = 0 then inherited else c.level) ≤ level

/-- An event to log, its message still a template. -/
structure Draft where
  level : Level
  logger : String
  template : String
  values : List Value
  fields : List (String × Value)
  failure : Option Failure

/-- The lines that an event writes at a moment: one text per handler. A template that does not suit
its values writes nothing. -/
def write (c : Channel) (time : Moment) (d : Draft) : Checked (List String) :=
  if !c.isOpen d.level.number then .ok []
  else match d.fields.find? (isReserved ·.1) with
    | some (name, _) => .error (.reservedField name)
    | none =>
      match fillTemplate d.template d.values with
      | none => .ok []
      | some message =>
        let event : Event :=
          ⟨d.level.text, loggerRoot ++ "." ++ d.logger, message, d.fields, d.failure⟩
        match event.format c.context time with
        | .ok text => .ok (List.replicate c.handlers text)
        | .error _ => .ok []

end Channel
end TipJar.Log
