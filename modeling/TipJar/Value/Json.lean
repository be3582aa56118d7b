import TipJar.Fault.Basic
import TipJar.Text.Escaped

/-! Values as JSON text.

Entries and items are separated by a comma and a blank, a key and its value by a
colon and a blank. Texts are escaped to ASCII; the special floating-point values
have names. What JSON has no form for is written as the style of the writer
says. -/
namespace TipJar

/-- How values without a form of their own are written, and whether keys are put in order. -/
structure JsonStyle where
  sorted : Bool
  other : Scalar → Checked String

namespace JsonStyle

/-- The plain text, in quotes. -/
def quotePlain (s : Scalar) : Checked String :=
  (Checked.ofArithmetic s.plain).map Text.escaped

/-- The style that identifies a configuration: ordered keys, plain texts. -/
def canonical : JsonStyle := ⟨true, quotePlain⟩

/-- The style of log lines: amounts are numbers of units, moments stand in one word. -/
def log : JsonStyle :=
  ⟨false, fun s => match s with
    | .amount a => .ok (toString a.units)
    | .moment m => .ok (Text.escaped m.isoText)
    | s => quotePlain s⟩

end JsonStyle

/-- A floating-point number in JSON text. -/
def Binary64.json : Binary64 → String
  | .nan => "NaN"
  | .infinite negative => if negative then "-Infinity" else "Infinity"
  | f => f.text

def Scalar.json (style : JsonStyle) : Scalar → Checked String
  | null => .ok "null"
  | bool b => .ok (if b then "true" else "false")
  | int i => .ok (Text.integerText i)
  | float f => .ok f.json
  | text s => .ok (Text.escaped s)
  | unit u => .ok (Text.escaped u.text)
  | preference p => .ok (Text.escaped p.text)
  | s => style.other s

/-- A key in JSON text; only texts, numbers and nothing can be keys. -/
def Scalar.jsonKey : Scalar → Checked String
  | null => .ok "\"null\""
  | bool b => .ok (if b then "\"true\"" else "\"false\"")
  | int i => .ok (Text.escaped (Text.integerText i))
  | float f => .ok (Text.escaped f.json)
  | text s => .ok (Text.escaped s)
  | unit u => .ok (Text.escaped u.text)
  | preference p => .ok (Text.escaped p.text)
  | s => .error (.mismatch (.keyKind s.fullKind))

/-- The order of two floating-point numbers or whole numbers. -/
def Scalar.numberBefore? (a b : Scalar) : Option Bool :=
  match a, b with
  | int i, int j => some (i < j)
  -- what is no number comes neither before nor after one
  | int i, float f => some (f.compareInt? i == some .gt)
  | float f, int i => some (f.compareInt? i == some .lt)
  | float f, float g =>
    -- the exact order: the second less the first is positive
    match f, g with
    | .finite n s e, .finite n' s' e' =>
      let low := min e e'
      some (Binary64.signed n (s * Nat.pow 2 (e - low).toNat) <
        Binary64.signed n' (s' * Nat.pow 2 (e' - low).toNat))
    | .infinite n, .infinite n' => some (n && !n')
    | .infinite n, _ => some n
    | _, .infinite n => some !n
    | _, _ => some false
  | _, _ => none

/-- A truth value as the number it counts for. -/
def Scalar.asNumber : Scalar → Scalar
  | bool b => int (if b then 1 else 0)
  | s => s

/-- Whether one key comes before another. Keys of unlike kinds have no order. -/
def Scalar.keyBefore (a b : Scalar) : Checked Bool :=
  match (Value.scalar a).text?, (Value.scalar b).text? with
  | some s, some t => .ok (s < t)
  | _, _ =>
    match a.asNumber.numberBefore? b.asNumber with
    | some before => .ok before
    | none =>
      match a, b with
      | date d, date e => .ok (d.day < e.day)
      | moment m, moment n =>
        if m.isNaive = n.isNaive then .ok (m.instant < n.instant)
        else .error (.mismatch .mixedMoments)
      | a, b => .error (.mismatch (.unordered "<" a.fullKind b.fullKind))

/-- Puts an entry into its place among entries in order. -/
def insertEntry {α : Type} (key : Scalar) (value : α) :
    List (Scalar × α) → Checked (List (Scalar × α))
  | [] => .ok [(key, value)]
  | (k, v) :: rest => do
    if ← Scalar.keyBefore key k then return (key, value) :: (k, v) :: rest
    else return (k, v) :: (← insertEntry key value rest)

/-- The entries in the order of their keys. -/
def sortEntries {α : Type} (entries : List (Scalar × α)) : Checked (List (Scalar × α)) :=
  entries.foldlM (fun sorted (key, value) => insertEntry key value sorted) []

/-- The entries of a map, keys and values already as text, in braces. -/
def braced (entries : List (String × String)) : String :=
  "\x7b" ++ ", ".intercalate (entries.map fun (k, v) => k ++ ": " ++ v) ++ "\x7d"

namespace Value

mutual

def json (style : JsonStyle) : Value → Checked String
  | scalar s => s.json style
  | list items => (jsonItems style items).map fun texts => "[" ++ ", ".intercalate texts ++ "]"
  | tuple items => (jsonItems style items).map fun texts => "[" ++ ", ".intercalate texts ++ "]"
  | map entries => do
    let entries := jsonEntries style entries
    let entries ← if style.sorted then sortEntries entries else .ok entries
    let texts ← entries.mapM fun (key, value) => do return (← key.jsonKey, ← value)
    return braced texts

/-- The items of a sequence as JSON texts. -/
def jsonItems (style : JsonStyle) : List Value → Checked (List String)
  | [] => .ok []
  | item :: items => do return (← json style item) :: (← jsonItems style items)

/-- The values of a map as JSON texts, under their keys. -/
def jsonEntries (style : JsonStyle) : List (Scalar × Value) → List (Scalar × Checked String)
  | [] => []
  | (key, value) :: entries => (key, json style value) :: jsonEntries style entries

end

end Value
end TipJar
