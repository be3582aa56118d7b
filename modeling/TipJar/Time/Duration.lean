import TipJar.Binary64.Basic
import TipJar.Text.Digit

/-! Lengths of time, in microseconds.

A length is at most 999999999 days in either direction. Parts may be given in
fractions of a unit: the whole part is exact, and what the fractions leave below
a microsecond is gathered and rounded once, half to even. -/
namespace TipJar

structure Duration where
  micros : Int
deriving DecidableEq, Inhabited

namespace Duration

def microsPerSecond : Nat := 1000000
def microsPerMinute : Nat := 60 * microsPerSecond
def microsPerHour : Nat := 60 * microsPerMinute
def microsPerDay : Nat := 24 * microsPerHour

/-- The most days a length can have. -/
def maxDays : Int := 999999999

/-- Why there is no such length. -/
inductive Error
  /-- The days do not even fit a machine word of 32 bits. -/
  | beyondWord
  | tooManyDays (days : Int)
  | notFinite
  | notNumber
deriving DecidableEq

/-- A length of so many microseconds. -/
def ofMicros (micros : Int) : Except Error Duration :=
  let days := micros / (microsPerDay : Int)
  if days < -0x80000000 ∨ 0x80000000 ≤ days then .error .beyondWord
  else if days < -maxDays ∨ maxDays < days then .error (.tooManyDays days)
  else .ok ⟨micros⟩

/-- Whole microseconds and the fractions gathered so far. -/
structure Sum where
  whole : Int
  rest : Binary64

def Sum.empty : Sum := ⟨0, .zero false⟩

/-- Adds a whole number of units. -/
def Sum.addWhole (s : Sum) (count : Int) (unit : Nat) : Sum :=
  { s with whole := s.whole + count * unit }

/-- Adds units that may have a fraction. -/
def Sum.addParts (s : Sum) (count : Binary64) (unit : Nat) : Except Error Sum :=
  match count.truncate? with
  | none => .error (if count.isNan then .notNumber else .notFinite)
  | some whole =>
    let s := s.addWhole whole unit
    let fraction := count.fraction
    if fraction.isZero then .ok s
    else
      let scaled := fraction.scale unit
      .ok ⟨s.whole + (scaled.truncate?).getD 0, s.rest.add scaled.fraction⟩

/-- The length of a sum, its fractions rounded. -/
def ofSum (s : Sum) : Except Error Duration :=
  ofMicros (if s.rest.isZero then s.whole else s.rest.roundOnto s.whole)

def ofHours (hours : Int) : Except Error Duration := ofMicros (hours * microsPerHour)

def ofMinutes (minutes : Int) : Except Error Duration := ofMicros (minutes * microsPerMinute)

def ofSeconds (seconds : Int) : Except Error Duration := ofMicros (seconds * microsPerSecond)

/-- Days, seconds of the day and microseconds of the second; only the days can be negative. -/
def parts (d : Duration) : Int × Nat × Nat :=
  let rest := (d.micros % (microsPerDay : Int)).toNat
  (d.micros / (microsPerDay : Int), rest / microsPerSecond, rest % microsPerSecond)

/-- The seconds as the nearest floating-point number, its fraction dropped. -/
def wholeSeconds (d : Duration) : Int :=
  ((Binary64.ofRatio (d.micros < 0) d.micros.natAbs microsPerSecond).truncate?).getD 0

/-- Hours, minutes and seconds, then the microseconds if there are any. -/
def clockText (width seconds micros : Nat) : String :=
  Text.padded width (seconds / 3600) ++ ":" ++ Text.padded 2 (seconds / 60 % 60) ++ ":" ++
    Text.padded 2 (seconds % 60) ++ (if micros = 0 then "" else "." ++ Text.padded 6 micros)

/-- `1 day, 2:00:00`. -/
def text (d : Duration) : String :=
  let (days, seconds, micros) := d.parts
  let dayText :=
    if days = 0 then ""
    else Text.integerText days ++ (if days.natAbs = 1 then " day, " else " days, ")
  dayText ++ clockText 1 seconds micros

end Duration
end TipJar
