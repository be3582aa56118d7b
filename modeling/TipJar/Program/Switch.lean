/-! The switch of a sweeper.

Starting a sweeper lets its background loop run, and stopping it raises a signal that
every sweep of the sweeper heeds, whether the loop or somebody else has begun it. The
signal is put down by the next start alone. -/
namespace TipJar.Sweeper

structure Switch where
  /-- Whether the signal to stop is up; there is none before the first start. -/
  signal : Option Bool
  /-- Whether the background loop is running. -/
  running : Bool

namespace Switch

/-- The switch of a sweeper that was never started. -/
def fresh : Switch := ⟨none, false⟩

/-- The loop is started, unless it is running. -/
def start (s : Switch) : Switch := if s.running then s else ⟨some false, true⟩

/-- The signal goes up, if there is one. -/
def raise (s : Switch) : Switch := { s with signal := s.signal.map fun _ => true }

/-- The signal goes up, and the loop ends. -/
def stop (s : Switch) : Switch := { s.raise with running := false }

/-- Whether sweeps are asked to stop. -/
def isUp (s : Switch) : Bool := s.signal.getD false

end Switch
end TipJar.Sweeper
