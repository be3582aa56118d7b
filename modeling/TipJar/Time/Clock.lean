import TipJar.Value.Number

/-! A clock that moves only when told to.

It always shows a moment with an offset. It is set, or moved by a length of time
given in seconds, minutes and hours of any number kind. -/
namespace TipJar

/-- A clock and what it shows. -/
structure Clock where
  time : Moment
  zoned : time.isNaive = false

namespace Clock

/-- A clock that shows a moment; a reading without an offset is refused. -/
def showing (m : Moment) : Checked Clock :=
  if h : m.isNaive = false then .ok ⟨m, h⟩ else .error (.invalid .naiveClock)

/-- What a clock shows that was not set: noon of the first of January 2024. -/
def initial : Clock :=
  ⟨⟨738885 * Duration.microsPerDay + Duration.microsPerDay / 2, by decide, some 0⟩, rfl⟩

/-- The length of time that seconds, minutes and hours make. -/
def step (seconds minutes hours : Value) : Checked Duration := do
  let sum ← seconds.addUnits "seconds" Duration.microsPerSecond .empty
  let sum ← minutes.addUnits "minutes" Duration.microsPerMinute sum
  let sum ← hours.addUnits "hours" Duration.microsPerHour sum
  Checked.ofDuration (Duration.ofSum sum)

/-- The clock moved by a length of time. -/
def moved (c : Clock) (d : Duration) : Checked Clock :=
  match h : c.time.add? d with
  | some m => .ok ⟨m, by
      unfold Moment.isNaive
      rw [(Moment.of?_wall h).2]
      exact c.zoned⟩
  | none => .error (.beyond .date)

def advance (c : Clock) (seconds minutes hours : Value) : Checked Clock := do
  c.moved (← step seconds minutes hours)

end Clock
end TipJar
