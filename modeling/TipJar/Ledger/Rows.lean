import TipJar.Drop.Status
import TipJar.Fault.Basic
import TipJar.Transfer.Kind

/-! The rows of the tables.

Names of a family are stored as text, so a row written from outside can hold a
text that is none of them; such a row is only found out when it is read. All
moments in rows are readings of universal time. -/
namespace TipJar

/-- A stored name: one of its family, or some other text. -/
inductive Stored (α : Type)
  | known (a : α)
  | other (text : String)
deriving DecidableEq

namespace Stored

/-- What a stored text stands for. -/
def ofText {α : Type} (ofText? : String → Option α) (s : String) : Stored α :=
  match ofText? s with
  | some a => known a
  | none => other s

def text {α : Type} (textOf : α → String) : Stored α → String
  | known a => textOf a
  | other s => s

/-- The name that was stored, or a fault that says it is none of its family. -/
def get {α : Type} (family : String) : Stored α → Checked α
  | known a => .ok a
  | other s => .error (.invalid (.notMember (Text.quoted s) family))

end Stored

namespace Ledger

/-- An account: one balance for one name. -/
structure Account where
  name : String
  balance : Amount
  preference : Option (Stored Preference)
  blacklisted : Bool
deriving DecidableEq

/-- An account as it is created. -/
def Account.opened (name : String) : Account := ⟨name, .zero, none, false⟩

/-- One movement of value from one account to another. The entries of one transfer share its event
and are numbered. -/
structure Entry where
  id : Uuid
  event : Uuid
  line : Int
  kind : Stored Transfer.Kind
  source : String
  destination : String
  amount : Amount
  recordedAt : Moment
deriving DecidableEq

/-- Whether two entries cannot both be kept: they share their identifier, or event and number. -/
def Entry.clashes (e o : Entry) : Bool := e.id == o.id || (e.event == o.event && e.line == o.line)

/-- Whether an entry moves value from or to an account. -/
def Entry.touches (e : Entry) (account : String) : Bool :=
  e.source == account || e.destination == account

end Ledger

/-- A drop: an amount put aside by its initiator for those who react to a message in time. -/
structure Drop where
  id : Uuid
  initiator : String
  token : String
  amount : Amount
  channel : String
  message : String
  deadline : Moment
  status : Stored Drop.Status
  openedAt : Moment
  claimedAt : Option Moment
  finishedAt : Option Moment
  event : Option Uuid
  participants : Option Int
  moved : Option Amount
  reason : Option String
deriving DecidableEq

namespace Drop

def has (d : Drop) (s : Status) : Bool := d.status == .known s

/-- Whether the drop still holds its amount. -/
def isHolding (d : Drop) : Bool := d.has .pending || d.has .settling

/-- Whether the drop waits for a sweep at a moment. -/
def isDue (d : Drop) (asOf : Moment) : Bool := d.has .pending && d.deadline.instant ≤ asOf.instant

/-- The drop once a sweeper has claimed it. -/
def asClaimed (d : Drop) (time : Moment) : Drop :=
  { d with status := .known .settling, claimedAt := some time }

def asSettled (d : Drop) (event : Uuid) (recipients : Nat) (moved : Amount) (time : Moment) :
    Drop :=
  { d with status := .known .settled, finishedAt := some time, event := some event,
           participants := some recipients, moved := some moved }

/-- The drop once it is found that nobody took part. -/
def asExpired (d : Drop) (time : Moment) : Drop :=
  { d with status := .known .expired, finishedAt := some time, participants := some 0,
           moved := some .zero }

def asFailed (d : Drop) (reason : String) (participants : Option Int) (time : Moment) : Drop :=
  { d with status := .known .failed, finishedAt := some time, reason := some reason, participants }

end Drop
end TipJar
