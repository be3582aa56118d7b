import TipJar.Binary64.Shortest
import TipJar.Text.Quoted
import TipJar.Value.Basic

/-! Values as texts.

A value is *shown* so that its kind can be seen: texts stand in quotes and
special kinds carry their name. Its plain *text* is what a message includes: the
text itself, the digits of a number. Only an amount beyond what decimals keep has
no plain text. -/
namespace TipJar

/-- The offset of a moment, shown. -/
def Moment.offsetShown (offset : Int) : String :=
  if offset = 0 then "datetime.timezone.utc"
  else "datetime.timezone(" ++ shownLength ⟨offset⟩ ++ ")"
where
  /-- The parts of a length of time that are not zero, shown. -/
  shownLength (d : Duration) : String :=
    let (days, seconds, micros) := d.parts
    let part (name : String) (n : Int) := if n = 0 then [] else [name ++ "=" ++ Text.integerText n]
    let parts := part "days" days ++ part "seconds" seconds ++ part "microseconds" micros
    "datetime.timedelta(" ++ (if parts.isEmpty then "0" else ", ".intercalate parts) ++ ")"

/-- A moment, shown part by part; seconds and microseconds only as far as they are not zero. -/
def Moment.shown (m : Moment) : String :=
  let (year, month, day) := Calendar.civil m.date.day
  let seconds := m.timeOfDay / Duration.microsPerSecond
  let micros := m.timeOfDay % Duration.microsPerSecond
  let tail :=
    if micros ≠ 0 then [seconds % 60, micros] else if seconds % 60 ≠ 0 then [seconds % 60] else []
  let numbers := [year, month, day, seconds / 3600, seconds / 60 % 60] ++ tail
  let offset := match m.offset with
    | none => []
    | some offset => ["tzinfo=" ++ offsetShown offset]
  "datetime.datetime(" ++ ", ".intercalate (numbers.map toString ++ offset) ++ ")"

def Scalar.shown : Scalar → String
  | null => "None"
  | bool b => if b then "True" else "False"
  | int i => Text.integerText i
  | float f => f.text
  | decimal d => "Decimal('" ++ d.text ++ "')"
  | amount a => "Amount(" ++ toString a.units ++ ")"
  | text s => Text.quoted s
  | moment m => m.shown
  | date d =>
    let (year, month, day) := Calendar.civil d.day
    "datetime.date(" ++ ", ".intercalate ([year, month, day].map toString) ++ ")"
  | duration d => Moment.offsetShown.shownLength d
  | uuid u => "UUID('" ++ u.text ++ "')"
  | unit u => "<DurationUnit." ++ u.label ++ ": '" ++ u.text ++ "'>"
  | preference p => "<NotificationPreference." ++ p.label ++ ": '" ++ p.text ++ "'>"

def Scalar.plain : Scalar → Except Decimal.ArithmeticError String
  | decimal d => .ok d.text
  | amount a => a.text
  | text s => .ok s
  | moment m => .ok m.text
  | date d => .ok d.text
  | duration d => .ok d.text
  | uuid u => .ok u.text
  | unit u => .ok ("DurationUnit." ++ u.label)
  | preference p => .ok ("NotificationPreference." ++ p.label)
  | s => .ok s.shown

namespace Value

mutual

def shown : Value → String
  | scalar s => s.shown
  | list items => "[" ++ ", ".intercalate (shownItems items) ++ "]"
  | tuple [item] => "(" ++ shown item ++ ",)"
  | tuple items => "(" ++ ", ".intercalate (shownItems items) ++ ")"
  | map entries => "\x7b" ++ ", ".intercalate (shownEntries entries) ++ "\x7d"

def shownItems : List Value → List String
  | [] => []
  | item :: items => shown item :: shownItems items

def shownEntries : List (Scalar × Value) → List String
  | [] => []
  | (key, value) :: entries => (key.shown ++ ": " ++ shown value) :: shownEntries entries

end

def plain : Value → Except Decimal.ArithmeticError String
  | scalar s => s.plain
  | v => .ok v.shown

end Value
end TipJar
