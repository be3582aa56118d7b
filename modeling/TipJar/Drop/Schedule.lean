import TipJar.Value.Number

/-! When a drop ends.

A duration is a positive whole number of hours or minutes and at most a
configured number of hours. Requests come loosely typed, so the checks are made
in a fixed order: the number, the unit, the length, the calendar. -/
namespace TipJar.Drop

/-- The longest a drop may last unless configured otherwise: a week. -/
def defaultMaxHours : Int := 24 * 7

/-- The unit that a value names, in any common spelling. -/
def readUnit (v : Value) : Checked DurationUnit :=
  match v with
  | .scalar (.unit u) => .ok u
  | v => do
    let written ← Checked.ofArithmetic v.plain
    match DurationUnit.ofSpelling? written with
    | some u => .ok u
    | none => .error (.invalid (.unknownUnit v.shown))

/-- The length of time that a number of units makes. -/
def lengthOf (count unit : Value) : Checked Duration := do
  match ← readUnit unit with
  | .hours => count.hours
  | .minutes => count.minutes

/-- How a unit appears in a refusal. -/
def unitLabel (v : Value) : Checked String :=
  match v with
  | .scalar (.unit u) => .ok u.text
  | v => Checked.ofArithmetic v.plain

def refuseDuration {α : Type} (count : Value) (label : String) (why : DurationFault) : Checked α :=
  .error (.refused (.invalidDuration count label why))

/-- The length of a drop, once number, unit and maximum are checked. -/
def checkedLength (count unit maxHours : Value) : Checked Duration := do
  let label ← unitLabel unit
  match count with
  | .scalar (.int n) =>
    if n < 1 then refuseDuration count label .tooShort
    else
      let length ← match lengthOf count unit with
        | .error (.invalid (.unknownUnit shown)) => refuseDuration count label (.unknownUnit shown)
        | other => other
      let longest ← maxHours.hours
      if longest.micros < length.micros then
        refuseDuration count label (.tooLong (← Checked.ofArithmetic maxHours.plain))
      else return length
  | _ => refuseDuration count label .notWhole

/-- The deadline of a drop opened at a moment. -/
def deadlineFor (opened : Moment) (count unit maxHours : Value) : Checked Moment := do
  let length ← checkedLength count unit maxHours
  Checked.inCalendar (opened.add? length)

/-- The text that opens a drop: the amount, the token to react with and the time that remains, in
whole minutes. -/
def announcement (amount token : String) (remaining : Duration) : String :=
  let minutes := remaining.wholeSeconds.fdiv 60
  ">>> **A reactdrop of " ++ amount ++ " was started!**\n\nReact with the " ++ token ++
    " emoji to participate\n\nTime remaining: " ++ Text.integerText (minutes.fdiv 60) ++
    " hour(s) and " ++ Text.integerText (minutes.fmod 60) ++ " minute(s)"

/-- The participants that take part: each once, in order of first appearance, the initiator left
out. -/
def eligible (participants : List String) (initiator : String) : List String :=
  (firsts participants).filter (· != initiator)
where
  /-- Each element once, at its first place. -/
  firsts : List String → List String
    | [] => []
    | p :: rest => p :: (firsts rest).filter (· != p)

end TipJar.Drop
