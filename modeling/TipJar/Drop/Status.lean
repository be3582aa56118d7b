/-! The life of a drop.

A drop is pending until one sweeper claims it, settling while its participants
are looked up and paid, and then settled, expired or failed for good. -/
namespace TipJar.Drop

/-- Where a drop is in its life. -/
inductive Status
  | pending
  | settling
  | settled
  | expired
  | failed
deriving DecidableEq, Inhabited

namespace Status

/-- All of them, in the order of a life. -/
def every : List Status := [pending, settling, settled, expired, failed]

/-- The stored form. -/
def text : Status → String
  | pending => "pending"
  | settling => "settling"
  | settled => "settled"
  | expired => "expired"
  | failed => "failed"

def ofText? (s : String) : Option Status := every.find? (·.text == s)

/-- Whether the life of the drop is over. -/
def isTerminal : Status → Bool
  | settled | expired | failed => true
  | pending | settling => false

/-- Whether the drop still holds its amount on the initiator's balance. -/
def isHolding (s : Status) : Bool := !s.isTerminal

theorem ofText?_text (s : Status) : ofText? s.text = some s := by
  cases s <;> rfl

end Status

/-- What a sweep did with one due drop. -/
inductive Outcome
  | settled
  | expired
  | failed
  /-- Another sweeper had claimed it. -/
  | skipped
deriving DecidableEq, Inhabited

namespace Outcome

/-- All of them. -/
def every : List Outcome := [settled, expired, failed, skipped]

def text : Outcome → String
  | settled => "settled"
  | expired => "expired"
  | failed => "failed"
  | skipped => "skipped"

def ofText? (s : String) : Option Outcome := every.find? (·.text == s)

end Outcome
end TipJar.Drop
