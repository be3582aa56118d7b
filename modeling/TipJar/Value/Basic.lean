import TipJar.Amount.Basic
import TipJar.Binary64.Basic
import TipJar.Drop.Unit
import TipJar.Preference
import TipJar.Time.Moment
import TipJar.Uuid

/-! Loosely typed values.

Configuration files, log fields and the arguments of an operator come as values
of any kind. A value is a scalar, a sequence, or a map from scalars that keeps
the order in which its entries were written. Texts are sequences of Unicode
characters, and a lone surrogate is none. Limits that a runtime sets by itself,
4300 digits for a number and a depth for nesting, are left out. -/
namespace TipJar

/-- A value without parts. -/
inductive Scalar
  | null
  | bool (b : Bool)
  | int (i : Int)
  | float (f : Binary64)
  | decimal (d : Decimal)
  | amount (a : Amount)
  | text (s : String)
  | moment (m : Moment)
  | date (d : Date)
  | duration (d : Duration)
  | uuid (u : Uuid)
  | unit (u : DurationUnit)
  | preference (p : Preference)
deriving DecidableEq

inductive Value
  | scalar (s : Scalar)
  | list (items : List Value)
  | tuple (items : List Value)
  | map (entries : List (Scalar × Value))

instance : Inhabited Scalar := ⟨.null⟩
instance : Inhabited Value := ⟨.scalar .null⟩
instance : Coe Scalar Value := ⟨.scalar⟩

/-- The short name of a scalar's kind. -/
def Scalar.kind : Scalar → String
  | null => "NoneType"
  | bool _ => "bool"
  | int _ => "int"
  | float _ => "float"
  | decimal _ => "Decimal"
  | amount _ => "Amount"
  | text _ => "str"
  | moment _ => "datetime"
  | date _ => "date"
  | duration _ => "timedelta"
  | uuid _ => "UUID"
  | unit _ => "DurationUnit"
  | preference _ => "NotificationPreference"

/-- The full name of a scalar's kind, with the family it belongs to. -/
def Scalar.fullKind : Scalar → String
  | decimal _ => "decimal.Decimal"
  | moment _ => "datetime.datetime"
  | date _ => "datetime.date"
  | duration _ => "datetime.timedelta"
  | s => s.kind

/-- Which scalars are taken for true: all but nothing, zero and the empty text. -/
def Scalar.truthy : Scalar → Bool
  | null => false
  | bool b => b
  | int i => i != 0
  | float f => !f.isZero
  | decimal (.finite _ coefficient _) => coefficient != 0
  | text s => !s.isEmpty
  | duration d => d.micros != 0
  | _ => true

namespace Value

def null : Value := .scalar .null
def bool (b : Bool) : Value := .scalar (.bool b)
def int (i : Int) : Value := .scalar (.int i)
def nat (n : Nat) : Value := .scalar (.int n)
def text (s : String) : Value := .scalar (.text s)
def amount (a : Amount) : Value := .scalar (.amount a)
def moment (m : Moment) : Value := .scalar (.moment m)
def uuid (u : Uuid) : Value := .scalar (.uuid u)

/-- A map with texts for keys. -/
def record (fields : List (String × Value)) : Value :=
  .map (fields.map fun (k, v) => (.text k, v))

/-- A value or nothing. -/
def ofOption {α : Type} (f : α → Value) (x : Option α) : Value := (x.map f).getD null

/-- The name of the kind of a value, as messages have it. -/
def kind : Value → String
  | scalar s => s.kind
  | list _ => "list"
  | tuple _ => "tuple"
  | map _ => "dict"

/-- The name of the kind with where it is from. -/
def fullKind : Value → String
  | scalar s => s.fullKind
  | v => v.kind

/-- Whether a value counts as true. -/
def truthy : Value → Bool
  | scalar s => s.truthy
  | list items => !items.isEmpty
  | tuple items => !items.isEmpty
  | map entries => !entries.isEmpty

/-- A text, also that of a value which stands for one. -/
def text? : Value → Option String
  | scalar (.text s) => some s
  | scalar (.unit u) => some u.text
  | scalar (.preference p) => some p.text
  | _ => none

end Value
end TipJar
