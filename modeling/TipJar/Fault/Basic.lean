import TipJar.Fault.Mismatch
import TipJar.Fault.Refusal
import TipJar.Transfer.Kind
import TipJar.Drop.Status

/-! Everything that can go wrong, by cause.

A fault has a name under which programs report it and, with few exceptions, a
text. Faults of the store and of the configuration's syntax have names only:
their texts belong to the store and the reader. -/
namespace TipJar

/-- A value of the right kind that is not allowed. -/
inductive Invalid
  | negativeAmount (units : Int)
  | floatCoins
  | unreadableAmount (shown : String)
  | tooFine (written : String)
  | noShares (count : String)
  /-- A text that is no member of a family of names. -/
  | notMember (shown family : String)
  | unknownPreference (shown : String)
  | naiveClock
  | naiveMoment (shown : String)
  | unknownUnit (shown : String)
  | notANumber
  | notADecimalNumber
  | notDigits (base : Nat) (shown : String)
  | notReal (shown : String)
  | signalingNan
  | malformedUuid
  | unknownContextField (name : String)
  | unknownLevel (shown : String)
  /-- A field of the configuration, and what is wrong with it. -/
  | field (name : String) (why : String)
  | malformedMoment (shown : String)
  | noYear (year : Nat)
  | noMonth
  | noDay
  | noHour
  | noMinute
  | noSecond
  /-- An offset of a day or more. -/
  | offsetTooFar (shown : String)
  | noCharacter
deriving DecidableEq

def Invalid.message : Invalid → String
  | negativeAmount units => "Amount cannot be negative: " ++ Text.integerText units
  | floatCoins => "Floats are not accepted for amounts; pass a str or Decimal"
  | unreadableAmount shown => "Invalid amount: " ++ shown
  | tooFine written =>
    "Amount " ++ written ++ " is finer than the smallest unit (" ++
      toString Amount.decimalPlaces ++ " decimal places)"
  | noShares count => "Cannot split into " ++ count ++ " shares"
  | notMember shown family => shown ++ " is not a valid " ++ family
  | unknownPreference shown => "Unknown notification preference: " ++ shown
  | naiveClock => "DeterministicClock requires a timezone-aware datetime"
  | naiveMoment shown => "Naive datetime not allowed: " ++ shown
  | unknownUnit shown => "Unknown duration unit: " ++ shown
  | notANumber => "cannot convert float NaN to integer"
  | notADecimalNumber => "cannot convert NaN to integer"
  | notDigits base shown =>
    "invalid literal for int() with base " ++ toString base ++ ": " ++ shown
  | notReal shown => "could not convert string to float: " ++ shown
  | signalingNan => "cannot convert signaling NaN to float"
  | malformedUuid => "badly formed hexadecimal UUID string"
  | unknownContextField name => "Unknown log context field: " ++ name
  | unknownLevel shown => "Unknown level: " ++ shown
  | field name why => name ++ ": " ++ why
  | malformedMoment shown => "Invalid isoformat string: " ++ shown
  | noYear year => "year " ++ toString year ++ " is out of range"
  | noMonth => "month must be in 1..12"
  | noDay => "day is out of range for month"
  | noHour => "hour must be in 0..23"
  | noMinute => "minute must be in 0..59"
  | noSecond => "second must be in 0..59"
  | offsetTooFar shown =>
    "offset must be a timedelta strictly between -timedelta(hours=24) and " ++
      "timedelta(hours=24), not " ++ shown ++ "."
  | noCharacter => "chr() arg not in range(0x110000)"

/-- A result outside the range of its kind. -/
inductive Beyond
  | date
  | word
  | days (count : Int)
  | infiniteFloat
  | infiniteDecimal
  | float
  | stored
deriving DecidableEq

def Beyond.message : Beyond → String
  | date => "date value out of range"
  | word => "Python int too large to convert to C int"
  | days count => "days=" ++ Text.integerText count ++ "; must have magnitude <= 999999999"
  | infiniteFloat => "cannot convert float infinity to integer"
  | infiniteDecimal => "cannot convert Infinity to integer"
  | float => "int too large to convert to float"
  | stored => "Python int too large to convert to SQLite INTEGER"

/-- How a call to the chat platform or the wallet fails. -/
inductive CallFault
  | connection (text : String)
  | permission (text : String)
  | lookup (text : String)
  | runtime (text : String)
  /-- No answer in time; a service that gave up itself says so. -/
  | timeout (text : String)
deriving DecidableEq

namespace CallFault

/-- The name under which programs report it. -/
def name : CallFault → String
  | connection _ => "ConnectionError"
  | permission _ => "PermissionError"
  | lookup _ => "LookupError"
  | runtime _ => "RuntimeError"
  | timeout _ => "TimeoutError"

def message : CallFault → String
  | connection text | permission text | lookup text | runtime text | timeout text => text

end CallFault

/-- Something that was not set up. -/
inductive NotReady
  | engine
  | wallet
deriving DecidableEq

def NotReady.message : NotReady → String
  | engine => "Engine not initialized. Call init_engine_from_url() first."
  | wallet => "No chain client configured"

/-- How a configuration text breaks the syntax. -/
inductive SyntaxFault
  | scanner
  | parser
  | composer
  | constructor
  | reader
deriving DecidableEq

/-- The name under which programs report it. -/
def SyntaxFault.name : SyntaxFault → String
  | scanner => "ScannerError"
  | parser => "ParserError"
  | composer => "ComposerError"
  | constructor => "ConstructorError"
  | reader => "ReaderError"

inductive Fault
  | refused (why : Refusal)
  | mismatch (why : Mismatch)
  | invalid (why : Invalid)
  | beyond (what : Beyond)
  | arithmetic (why : Decimal.ArithmeticError)
  /-- A key that is not there. -/
  | missing (key : Scalar)
  /-- A log field that a record holds already. -/
  | reservedField (name : String)
  | call (why : CallFault)
  | notReady (what : NotReady)
  | store (why : StoreFault)
  | written (why : SyntaxFault)
  | noFile (path : String)
  | noDriver (name : String)
  /-- A place in a list that it does not have. -/
  | noPlace

instance : Inhabited Fault := ⟨.notReady .engine⟩

namespace Fault

/-- The name under which the fault is reported and logged. -/
def name : Fault → String
  | refused why => why.category.name
  | mismatch why => why.name
  | invalid _ => "ValueError"
  | beyond _ => "OverflowError"
  | arithmetic .overflow => "Overflow"
  | arithmetic .invalidOperation => "InvalidOperation"
  | missing _ | reservedField _ => "KeyError"
  | call why => why.name
  | notReady _ => "RuntimeError"
  | store why => why.name
  | written why => why.name
  | noFile _ => "FileNotFoundError"
  | noDriver _ => "ModuleNotFoundError"
  | noPlace => "IndexError"

/-- The text of the fault; faults of the store and of the syntax have none of their own. -/
def message? : Fault → Option String
  | refused (.unsaved ..) => none
  | refused why => some why.message
  | mismatch why => some why.message
  | invalid why => some why.message
  | beyond what => some what.message
  | arithmetic .overflow => some "[<class 'decimal.Overflow'>]"
  | arithmetic .invalidOperation => some "[<class 'decimal.InvalidOperation'>]"
  | missing key => some key.shown
  | reservedField name => some (Text.quoted ("Attempt to overwrite '" ++ name ++ "' in LogRecord"))
  | call why => some why.message
  | notReady what => some what.message
  | store _ | written _ => none
  | noFile path => some ("Configuration file not found: " ++ path)
  | noPlace => some "list index out of range"
  | noDriver name => some ("No module named " ++ Text.quoted name)

/-- The text of a fault, and nothing for one that has none. -/
def message (f : Fault) : String := f.message?.getD ""

/-- Whether the fault is one of a value that is not allowed. -/
def isInvalid : Fault → Bool
  | invalid _ => true
  | _ => false

/-- Whether the fault is one of a value of the wrong kind. -/
def isKindMismatch : Fault → Bool
  | mismatch why => why.name == "TypeError"
  | _ => false

/-- How a length of time that cannot be is reported. -/
def ofDuration : Duration.Error → Fault
  | .beyondWord => beyond .word
  | .tooManyDays days => beyond (.days days)
  | .notFinite => beyond .infiniteFloat
  | .notNumber => invalid .notANumber

/-- How a moment that cannot be, or an order of unlike moments, is reported. -/
def ofMoment : Moment.Error → Fault
  | .outOfRange => beyond .date
  | .mixedKinds => mismatch .mixedMoments

end Fault

/-- A result or a fault. -/
abbrev Checked := Except Fault

namespace Checked

/-- Fails with a refusal. -/
def refuse {α : Type} (why : Refusal) : Checked α := .error (.refused why)

/-- Arithmetic that may not have a result. -/
def ofArithmetic {α : Type} (x : Except Decimal.ArithmeticError α) : Checked α :=
  x.mapError .arithmetic

/-- A length of time that may not exist. -/
def ofDuration {α : Type} (x : Except Duration.Error α) : Checked α := x.mapError .ofDuration

/-- A moment that may lie outside the calendar. -/
def inCalendar {α : Type} (x : Option α) : Checked α :=
  match x with
  | some a => .ok a
  | none => .error (.beyond .date)

end Checked

/-- A fault as it is logged: its name, its text, and for refusals a code and the details. -/
structure Failure where
  name : String
  message : String
  code : Option String
  fields : List (String × Value)

/-- A refusal as it is logged. -/
def Report.failure (r : Report) : Failure :=
  ⟨r.category.name, r.message, some r.category.code, r.fields⟩

/-- The report of a category from the arguments it is raised with, which must be as many as it has
details. The receiver counts as an argument where they are too many. -/
def Report.ofArguments (c : Category) (arguments : List Value) : Checked Report :=
  match c.details? with
  | none => Checked.ofArithmetic (Report.of c arguments)
  | some names =>
    let raised := c.name ++ ".__init__"
    if arguments.length < names.length then
      .error (.mismatch (.missingArguments raised (names.drop arguments.length)))
    else if names.length < arguments.length then
      .error (.mismatch (.surplusArguments raised (names.length + 1) (arguments.length + 1)))
    else Checked.ofArithmetic (Report.of c arguments)

/-- A fault outside the categories, from its name and the arguments it is raised with. A missing key
is quoted. -/
def Failure.ofArguments (name : String) (arguments : List Value) : Checked Failure := do
  let message ← match name, arguments with
    | "KeyError", [key] => .ok key.shown
    | _, arguments => Checked.ofArithmetic (plainArguments arguments)
  return ⟨name, message, none, []⟩

/-- A fault as it is logged. -/
def Fault.failure : Fault → Failure
  | refused why => why.report.failure
  | f => ⟨f.name, f.message, none, []⟩

end TipJar
