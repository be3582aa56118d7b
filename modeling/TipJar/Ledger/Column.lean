import TipJar.Amount.Coins

/-! How values go into columns of the tables and come out again.

Amounts are stored as counts of units, moments as readings of universal time
without an offset, identifiers as text. Nothing stays nothing in either
direction. -/
namespace TipJar.Ledger.Column

/-- The count that stands for an amount; a bare count stands for itself. -/
def storeAmount : Value → Checked Value
  | .scalar .null => .ok .null
  | .scalar (.amount a) => .ok (.nat a.units)
  | .scalar (.int i) => .ok (.int i)
  | v => .error (.mismatch (.notStorable v.kind))

/-- The amount that a stored count stands for. -/
def loadAmount : Value → Checked (Option Amount)
  | .scalar .null => .ok none
  | v => do return some (← Amount.ofUnits (← v.whole))

/-- The stored reading of a moment. -/
def storeMoment : Value → Checked Value
  | .scalar .null => .ok .null
  | .scalar (.moment m) =>
    if m.isNaive then .error (.invalid (.naiveMoment m.shown))
    else do return .moment (← Checked.inCalendar m.toUtc?).naive
  | v => .error (.mismatch (.noAttribute v.fullKind "tzinfo"))

def loadMoment : Value → Checked Value
  | .scalar .null => .ok .null
  | .scalar (.moment m) =>
    if m.isNaive then .ok (.moment { m with offset := some 0 })
    else do return .moment (← Checked.inCalendar m.toUtc?)
  | v => .error (.mismatch (.noAttribute v.fullKind "tzinfo"))

/-- The text that stands for an identifier. -/
def storeUuid : Value → Checked Value
  | .scalar .null => .ok .null
  | v => do return .text (← Checked.ofArithmetic v.plain)

def loadUuid : Value → Checked Value
  | .scalar .null => .ok .null
  | v =>
    match v.text? with
    | some s =>
      match Uuid.parse s with
      | .ok u => .ok (.uuid u)
      | .error .wrongLength => .error (.invalid .malformedUuid)
      | .error (.notHexadecimal rest) => .error (.invalid (.notDigits 16 (Text.quoted rest)))
    | none => .error (.mismatch (.noAttribute v.fullKind "replace"))

end TipJar.Ledger.Column
