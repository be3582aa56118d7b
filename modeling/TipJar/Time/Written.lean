import TipJar.Time.Moment

/-! Reading moments and dates as they are written.

A date is written with hyphens. A time of day follows after one character, whole
hours at least, and may end in an offset; a fraction of a second keeps six
digits. -/
namespace TipJar.Written

/-- Reads exactly `count` plain digits. -/
def digits? : Nat → List Char → Option (List Nat × List Char)
  | 0, rest => some ([], rest)
  | _ + 1, [] => none
  | count + 1, c :: rest =>
    if c.isDigit then (digits? count rest).map fun (ds, after) => ((c.toNat - 48) :: ds, after)
    else none

/-- Reads a number of exactly `count` digits. -/
def number? (count : Nat) (s : List Char) : Option (Nat × List Char) :=
  (digits? count s).map fun (ds, rest) => (Text.valueOf ds, rest)

/-- Reads `2024-06-01`. -/
def date? (s : List Char) : Option (Date × List Char) := do
  let (year, rest) ← number? 4 s
  let ('-' :: rest) := rest | none
  let (month, rest) ← number? 2 rest
  let ('-' :: rest) := rest | none
  let (day, rest) ← number? 2 rest
  let d ← Date.of? year month day
  some (d, rest)

/-- Microseconds from the digits of a fraction of a second; digits beyond the sixth are dropped. -/
def micros (ds : List Char) : Nat :=
  Text.valueOf (((ds ++ List.replicate 6 '0').take 6).map (·.toNat - 48))

/-- A fraction of a second behind a point or a comma, or nothing. -/
def fraction? : List Char → Option (Nat × List Char)
  | '.' :: rest | ',' :: rest =>
    let ds := rest.takeWhile Char.isDigit
    if ds.isEmpty then none else some (micros ds, rest.dropWhile Char.isDigit)
  | rest => some (0, rest)

/-- Hours, then minutes, then seconds, as far as they are written, in microseconds. -/
def timeOfDay? (s : List Char) : Option (Nat × List Char) := do
  let (hours, rest) ← number? 2 s
  guard (hours < 24)
  let (':' :: afterHours) := rest | some (hours * Duration.microsPerHour, rest)
  let (minutes, rest) ← number? 2 afterHours
  guard (minutes < 60)
  let whole := hours * Duration.microsPerHour + minutes * Duration.microsPerMinute
  let (':' :: afterMinutes) := rest | some (whole, rest)
  let (seconds, rest) ← number? 2 afterMinutes
  guard (seconds < 60)
  let (micros, rest) ← fraction? rest
  some (whole + seconds * Duration.microsPerSecond + micros, rest)

/-- A time below a day; less than a second counts as nothing. -/
def offsetSize? (s : List Char) : Option Nat := do
  let (micros, []) ← timeOfDay? s | none
  some (if micros < Duration.microsPerSecond then 0 else micros)

/-- The offset at the end: nothing, `Z`, or a sign and a time below a day. -/
def offset? : List Char → Option (Option Int)
  | [] => some none
  | ['Z'] => some (some 0)
  | '+' :: rest => (offsetSize? rest).map fun micros => some micros
  | '-' :: rest => (offsetSize? rest).map fun micros => some (-(micros : Int))
  | _ => none

/-- Reads a moment; midnight when only a date is written. -/
def moment? (s : String) : Option Moment := do
  let (d, rest) ← date? s.toList
  match rest with
  | [] => Moment.at? d 0 none
  | _ :: rest =>
    let (micros, rest) ← timeOfDay? rest
    let offset ← offset? rest
    Moment.at? d micros offset

/-- Reads a date and nothing else. -/
def onlyDate? (s : String) : Option Date :=
  match date? s.toList with
  | some (d, []) => some d
  | _ => none

end TipJar.Written
