import TipJar.Text.Digit

/-! Calendar dates.

A date is the number of days since the first day of year one; year, month and
day are read off it. Years run from 1 to 9999, and the leap rule of today is
used for all of them. -/
namespace TipJar

namespace Calendar

/-- Every fourth year is a leap year, every hundredth is not, every four hundredth is. -/
def isLeap (year : Nat) : Bool := year % 4 == 0 && (year % 100 != 0 || year % 400 == 0)

/-- The days in the years before one. -/
def daysBeforeYear (year : Nat) : Nat :=
  let y := year - 1
  y * 365 + y / 4 - y / 100 + y / 400

def monthLengths (leap : Bool) : List Nat :=
  [31, if leap then 29 else 28, 31, 30, 31, 30, 31, 31, 30, 31, 30, 31]

/-- The days in the months before one. -/
def daysBeforeMonth (leap : Bool) (month : Nat) : Nat :=
  ((monthLengths leap).take (month - 1)).foldl Nat.add 0

/-- How many days there are: the years 1 to 9999. -/
def dayCount : Nat := 3652059

/-- The number of a date; none when there is no such date. -/
def dayNumber? (year month day : Nat) : Option Nat :=
  let leap := isLeap year
  match (monthLengths leap)[month - 1]? with
  | some length =>
    if 1 ≤ year ∧ year ≤ 9999 ∧ 1 ≤ month ∧ 1 ≤ day ∧ day ≤ length then
      some (daysBeforeYear year + daysBeforeMonth leap month + (day - 1))
    else none
  | none => none

/-- The month a day of the year lies in and the day within it, both from one. -/
def monthAndDay (month : Nat) : List Nat → Nat → Nat × Nat
  | [], rest => (month, rest + 1)
  | length :: lengths, rest =>
    if rest < length then (month, rest + 1) else monthAndDay (month + 1) lengths (rest - length)

/-- The year of a day. Among 400, 100, 4 and 1 years the longest spans are taken out first; the last
day of a span of 400 or 4 years belongs to its last year. -/
def yearOf (day : Nat) : Nat :=
  let in400 := day % 146097
  let hundreds := min 3 (in400 / 36524)
  let in100 := in400 - hundreds * 36524
  let in4 := in100 % 1461
  let years := min 3 (in4 / 365)
  day / 146097 * 400 + hundreds * 100 + in100 / 1461 * 4 + years + 1

/-- Year, month and day of a day number. -/
def civil (day : Nat) : Nat × Nat × Nat :=
  let year := yearOf day
  let (month, dayOfMonth) := monthAndDay 1 (monthLengths (isLeap year)) (day - daysBeforeYear year)
  (year, month, dayOfMonth)

end Calendar

/-- A date, as the number of days since the first of January of year one. -/
structure Date where
  day : Nat
  day_lt : day < Calendar.dayCount
deriving DecidableEq

namespace Date

/-- The date with a year, a month and a day. -/
def of? (year month day : Nat) : Option Date :=
  (Calendar.dayNumber? year month day).bind fun n =>
    if h : n < Calendar.dayCount then some ⟨n, h⟩ else none

/-- `2024-06-01`. -/
def text (d : Date) : String :=
  let (year, month, day) := Calendar.civil d.day
  Text.padded 4 year ++ "-" ++ Text.padded 2 month ++ "-" ++ Text.padded 2 day

end Date
end TipJar
