import TipJar.Text.Blank

/-! The units in which the duration of a drop is given. -/
namespace TipJar

inductive DurationUnit
  | hours
  | minutes
deriving DecidableEq, Inhabited

namespace DurationUnit

/-- The written form. -/
def text : DurationUnit → String
  | hours => "hours"
  | minutes => "minutes"

/-- The name in capitals. -/
def label : DurationUnit → String
  | hours => "HOURS"
  | minutes => "MINUTES"

/-- The unit of a name, exactly as it is written. -/
def ofText? : String → Option DurationUnit
  | "hours" => some hours
  | "minutes" => some minutes
  | _ => none

/-- Reads a common spelling, blanks around it and capitals allowed. No character outside ASCII has a
small form in a spelling but the Kelvin sign, which none of them contains. -/
def ofSpelling? (s : String) : Option DurationUnit :=
  match String.ofList ((Text.stripWhere Text.isBlank s.toList).map Char.toLower) with
  | "h" | "hr" | "hour" | "hours" => some hours
  | "m" | "min" | "minute" | "minutes" => some minutes
  | _ => none

end DurationUnit
end TipJar
