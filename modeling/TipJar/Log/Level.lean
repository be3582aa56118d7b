import TipJar.Fault.Basic

/-! Log levels: names for numbers, the greater the graver. -/
namespace TipJar.Log

/-- The levels with a name; two of them have a second one. -/
def levels : List (String × Nat) :=
  [("CRITICAL", 50), ("FATAL", 50), ("ERROR", 40), ("WARN", 30), ("WARNING", 30), ("INFO", 20),
   ("DEBUG", 10), ("NOTSET", 0)]

/-- The number of a level. -/
def levelOf? (name : String) : Option Nat := (levels.find? (·.1 == name)).map (·.2)

/-- The level at which what was never set counts as set. -/
def inherited : Nat := 30

/-- How grave a line is. -/
inductive Level
  | debug
  | info
  | warning
  | error
  | critical
deriving DecidableEq

namespace Level

def text : Level → String
  | debug => "DEBUG"
  | info => "INFO"
  | warning => "WARNING"
  | error => "ERROR"
  | critical => "CRITICAL"

/-- How grave a level is. -/
def number : Level → Nat
  | debug => 10
  | info => 20
  | warning => 30
  | error => 40
  | critical => 50

def ofText? (s : String) : Option Level :=
  match s with
  | "DEBUG" => some debug
  | "INFO" => some info
  | "WARNING" | "WARN" => some warning
  | "ERROR" => some error
  | "CRITICAL" | "FATAL" => some critical
  | _ => none

end Level
end TipJar.Log
