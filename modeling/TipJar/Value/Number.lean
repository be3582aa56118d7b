import TipJar.Binary64.Parser
import TipJar.Decimal.Parser
import TipJar.Fault.Basic
import TipJar.Text.Whole

/-! Values taken as numbers. -/
namespace TipJar

/-- The characters of a quoted text that a message about digits includes. -/
def shownLimit : Nat := 200

/-- Reads a whole number, or says that the text is none. -/
def Value.wholeText (s shown : String) : Checked Int :=
  match Text.whole? s with
  | some i => .ok i
  | none => .error (.invalid (.notDigits 10 (String.ofList (shown.toList.take shownLimit))))

/-- The whole number a scalar stands for; a fraction is dropped. -/
def Scalar.whole : Scalar → Checked Int
  | bool b => .ok (if b then 1 else 0)
  | int i => .ok i
  | float f =>
    match f.truncate? with
    | some i => .ok i
    | none => .error (if f.isNan then .invalid .notANumber else .beyond .infiniteFloat)
  | decimal d =>
    match d.truncate with
    | some i => .ok i
    | none => .error (if d.isNan then .invalid .notADecimalNumber else .beyond .infiniteDecimal)
  | text s => Value.wholeText s (Text.quoted s)
  | unit u => Value.wholeText u.text (Scalar.unit u).shown
  | preference p => Value.wholeText p.text (Scalar.preference p).shown
  | uuid u => .ok u.value
  | s => .error (.mismatch (.notWhole s.fullKind))

/-- Reads a number, or says that the text is none. -/
def Value.realText (s shown : String) : Checked Binary64 :=
  match Binary64.parse? s with
  | some f => .ok f
  | none => .error (.invalid (.notReal shown))

/-- The floating-point number a scalar stands for. -/
def Scalar.real : Scalar → Checked Binary64
  | bool b => .ok (.ofInt (if b then 1 else 0))
  | int i =>
    match Binary64.ofInt i with
    | .infinite _ => .error (.beyond .float)
    | f => .ok f
  | float f => .ok f
  | decimal (.nan _ true _) => .error (.invalid .signalingNan)
  | decimal (.nan _ false _) => .ok .nan
  | decimal d => Value.realText d.text d.text
  | text s => Value.realText s (Text.quoted s)
  | unit u => Value.realText u.text (Scalar.unit u).shown
  | preference p => Value.realText p.text (Scalar.preference p).shown
  | s => .error (.mismatch (.notReal s.fullKind))

/-- The whole number a value stands for. -/
def Value.whole : Value → Checked Int
  | .scalar s => s.whole
  | v => .error (.mismatch (.notWhole v.fullKind))

/-- The floating-point number a value stands for. -/
def Value.real : Value → Checked Binary64
  | .scalar s => s.real
  | v => .error (.mismatch (.notReal v.fullKind))

/-- Whether a value is at most zero, for values that compare with whole numbers. -/
def Value.atMostZero : Value → Checked Bool
  | .scalar (.bool b) => .ok !b
  | .scalar (.int i) => .ok (i ≤ 0)
  | .scalar (.float f) => .ok (match f.compareInt? 0 with
    | some .gt | none => false
    | _ => true)
  | .scalar (.decimal d) =>
    match d.atMostZero with
    | some b => .ok b
    | none => .error (.arithmetic .invalidOperation)
  | v => .error (.mismatch (.unordered "<=" v.fullKind "int"))

/-- Adds so many units of time, given as a number of any kind. -/
def Value.addUnits (v : Value) (part : String) (unit : Nat) (sum : Duration.Sum) :
    Checked Duration.Sum :=
  match v with
  | .scalar (.bool b) => .ok (sum.addWhole (if b then 1 else 0) unit)
  | .scalar (.int i) => .ok (sum.addWhole i unit)
  | .scalar (.float f) => Checked.ofDuration (sum.addParts f unit)
  | v => .error (.mismatch (.durationPart part v.fullKind))

/-- The length of time that a number of units makes. -/
def Value.duration (v : Value) (part : String) (unit : Nat) : Checked Duration := do
  let sum ← v.addUnits part unit .empty
  Checked.ofDuration (Duration.ofSum sum)

/-- So many hours, as a length of time. -/
def Value.hours (v : Value) : Checked Duration := v.duration "hours" Duration.microsPerHour

/-- So many minutes, as a length of time. -/
def Value.minutes (v : Value) : Checked Duration := v.duration "minutes" Duration.microsPerMinute

/-- So many seconds, as a length of time. -/
def Value.seconds (v : Value) : Checked Duration := v.duration "seconds" Duration.microsPerSecond

end TipJar
