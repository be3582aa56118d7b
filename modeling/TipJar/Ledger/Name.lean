import TipJar.Fault.Basic
import TipJar.Text.Blank

/-! The names of accounts.

An account is named by an opaque text that is not blank and has at most 64
characters. -/
namespace TipJar.Ledger

def checkName (v : Value) : Except Refusal String :=
  match v.text? with
  | some name =>
    if Text.isBlankText name then .error (.malformed (.account v.shown))
    else if accountNameLimit < name.length then .error (.malformed (.longAccount v.shown))
    else .ok name
  | none => .error (.malformed (.account v.shown))

/-- The preference that a value names; nothing names none. -/
def readPreference (v : Value) : Checked (Option Preference) :=
  match v with
  | .scalar .null => .ok none
  | v =>
    match v.text?.bind Preference.ofText? with
    | some p => .ok (some p)
    | none => .error (.invalid (.unknownPreference v.shown))

/-- The member of a family of names that a value is, or a fault that says it is none. -/
def readMember {α : Type} (family : String) (ofText? : String → Option α) (v : Value) : Checked α :=
  match v.text?.bind ofText? with
  | some a => .ok a
  | none => .error (.invalid (.notMember v.shown family))

end TipJar.Ledger
