import TipJar.Time.Date
import TipJar.Time.Duration

/-! Moments: a calendar day and a time of day, with an offset or without.

The reading of the calendar and the clock is a number of microseconds since the
start of year one. With an offset it fixes an instant; two readings with
different offsets can fix the same instant, and are kept apart. -/
namespace TipJar

/-- What a clock shows, and how far ahead of universal time it is. -/
structure Moment where
  wall : Nat
  wall_lt : wall < Calendar.dayCount * Duration.microsPerDay
  offset : Option Int
deriving DecidableEq

namespace Moment

/-- The number of readings there are. -/
def limit : Nat := Calendar.dayCount * Duration.microsPerDay

/-- The reading with so many microseconds; none before year 1 and after year 9999. -/
def of? (wall : Int) (offset : Option Int) : Option Moment :=
  if h : 0 ≤ wall ∧ wall < limit then
    some ⟨wall.toNat, by have := h.2; unfold limit at this; omega, offset⟩
  else none

/-- The reading on a day at a time of day. -/
def at? (d : Date) (micros : Nat) (offset : Option Int) : Option Moment :=
  of? (d.day * Duration.microsPerDay + micros) offset

/-- The same offset, a length of time later. -/
def add? (m : Moment) (d : Duration) : Option Moment := of? (m.wall + d.micros) m.offset

/-- The same offset, a length of time earlier. -/
def sub? (m : Moment) (d : Duration) : Option Moment := of? (m.wall - d.micros) m.offset

/-- Whether the reading has no offset, and so fixes no instant. -/
def isNaive (m : Moment) : Bool := m.offset.isNone

/-- The instant as microseconds of universal time; for a reading without an offset, the reading. -/
def instant (m : Moment) : Int := m.wall - m.offset.getD 0

/-- The same instant read in universal time; none when that falls outside the calendar. -/
def toUtc? (m : Moment) : Option Moment := of? m.instant (some 0)

/-- The reading without its offset. -/
def naive (m : Moment) : Moment := { m with offset := none }

/-- The length of time from one moment to another with the same kind of reading. -/
def since (m earlier : Moment) : Duration := ⟨m.instant - earlier.instant⟩

/-- The calendar day of the reading. -/
def date (m : Moment) : Date :=
  ⟨m.wall / Duration.microsPerDay,
    (Nat.div_lt_iff_lt_mul (by decide)).2 m.wall_lt⟩

/-- The microseconds since midnight. -/
def timeOfDay (m : Moment) : Nat := m.wall % Duration.microsPerDay

/-- The signed offset, as hours and minutes, with seconds and microseconds only if there are any. -/
def offsetText (offset : Int) : String :=
  let micros := offset.natAbs
  let seconds := micros / Duration.microsPerSecond
  let rest := micros % Duration.microsPerSecond
  (if offset < 0 then "-" else "+") ++ Text.padded 2 (seconds / 3600) ++ ":" ++
    Text.padded 2 (seconds / 60 % 60) ++
    (if seconds % 60 = 0 ∧ rest = 0 then ""
     else ":" ++ Text.padded 2 (seconds % 60) ++
       (if rest = 0 then "" else "." ++ Text.padded 6 rest))

/-- Date and time of day with a text between them, and the offset. -/
def textWith (between : String) (m : Moment) : String :=
  let micros := m.timeOfDay
  m.date.text ++ between ++
    Duration.clockText 2 (micros / Duration.microsPerSecond) (micros % Duration.microsPerSecond) ++
    (m.offset.map offsetText).getD ""

/-- `2024-06-01T12:00:00+00:00`. -/
def isoText : Moment → String := textWith "T"

/-- `2024-06-01 12:00:00+00:00`. -/
def text : Moment → String := textWith " "

/-- `2024-06-01 12:00`. -/
def minuteText (m : Moment) : String :=
  let seconds := m.timeOfDay / Duration.microsPerSecond
  m.date.text ++ " " ++ Text.padded 2 (seconds / 3600) ++ ":" ++ Text.padded 2 (seconds / 60 % 60)

/-- `2024-06-01 12:00:00`. -/
def secondText (m : Moment) : String :=
  m.minuteText ++ ":" ++ Text.padded 2 (m.timeOfDay / Duration.microsPerSecond % 60)

/-- A moment outside the calendar, or an order asked of two readings of different kind. -/
inductive Error
  | outOfRange
  | mixedKinds
deriving DecidableEq

/-- Whether the first is no later. Readings with and without an offset have no order. -/
def noLater (a b : Moment) : Except Error Bool :=
  if a.isNaive = b.isNaive then .ok (a.instant ≤ b.instant) else .error .mixedKinds

theorem of?_wall {wall : Int} {offset : Option Int} {m : Moment} (h : of? wall offset = some m) :
    (m.wall : Int) = wall ∧ m.offset = offset := by
  unfold of? at h
  split at h
  · next hw => injection h with h; subst h; exact ⟨Int.toNat_of_nonneg hw.1, rfl⟩
  · simp at h

/-- Reading a moment in universal time keeps the instant. -/
theorem instant_toUtc? {m u : Moment} (h : m.toUtc? = some u) : u.instant = m.instant := by
  obtain ⟨hw, ho⟩ := of?_wall h
  unfold instant
  rw [ho]
  simpa [instant] using hw

end Moment
end TipJar
