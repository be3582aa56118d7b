import TipJar.Ledger.Arithmetic
import TipJar.Ledger.Balance
import TipJar.Ledger.Rows

/-! The tables, and what can be read from them.

Rows stand in the order in which they were written. Reading never changes the
tables; queries that promise an order sort by keys that leave no choice, since no
two rows agree in all of them. -/
namespace TipJar.Ledger

structure Store where
  accounts : List Account
  entries : List Entry
  drops : List Drop

namespace Store

def empty : Store := ⟨[], [], []⟩

/-! ### Accounts -/

def account? (s : Store) (name : String) : Option Account := s.accounts.find? (·.name == name)

/-- Adds an account if its name has none. -/
def withAccount (s : Store) (name : String) : Store :=
  match s.account? name with
  | some _ => s
  | none => { s with accounts := s.accounts ++ [.opened name] }

def updateAccount (s : Store) (name : String) (f : Account → Account) : Store :=
  { s with accounts := s.accounts.map fun a => if a.name == name then f a else a }

/-- The balance of a name; nothing for a name without account. -/
def balance (s : Store) (name : String) : Amount := ((s.account? name).map (·.balance)).getD .zero

def credit (s : Store) (name : String) (amount : Amount) : Store :=
  s.updateAccount name fun a =>
    { a with balance := ⟨columnSum a.balance.units amount.units⟩ }

def debit (s : Store) (name : String) (amount : Amount) : Store :=
  s.updateAccount name fun a =>
    { a with balance := ⟨(columnDifference a.balance.units amount.units).toNat⟩ }

/-! ### Holds -/

/-- The drops that hold part of an account's balance; one of them may be left out. -/
def holding (s : Store) (name : String) (except : Option Uuid) : List Drop :=
  s.drops.filter fun d => d.isHolding && d.initiator == name && except != some d.id

/-- What is held of an account's balance. -/
def held (s : Store) (name : String) (except : Option Uuid) : Amount :=
  Amount.sum ((s.holding name except).map (·.amount))

/-- Whether an amount can be taken from a balance without touching the holds, as the store
calculates it. -/
def Covers (s : Store) (name : String) (except : Option Uuid) (amount : Amount) : Prop :=
  amount.units ≤ columnDifference (s.balance name).units (s.held name except).units

instance (s : Store) (name : String) (except : Option Uuid) (amount : Amount) :
    Decidable (s.Covers name except amount) := inferInstanceAs (Decidable (_ ≤ _))

/-- The balance of an account, as its holder sees it. -/
def view (s : Store) (name : String) (except : Option Uuid) : Balance :=
  ⟨name, s.balance name, s.held name except⟩

/-! ### Orders -/

/-- Compares by one key, and where that is the same by another. -/
def thenBy {α : Type} (first second : α → α → Ordering) (a b : α) : Ordering :=
  (first a b).then (second a b)

/-- The first rows of a list; without a limit, or with a negative one, all. -/
def limited {α : Type} (limit : Option Int) (rows : List α) : List α :=
  match limit with
  | some n => if n < 0 then rows else rows.take n.toNat
  | none => rows

/-- The order of entries: when they were recorded, their event, their number in it. -/
def entryOrder : Entry → Entry → Ordering :=
  thenBy (fun a b => compare a.recordedAt.instant b.recordedAt.instant)
    (thenBy (fun a b => compare a.event.value b.event.value) (fun a b => compare a.line b.line))

/-- The order of drops: a moment, then their identifiers. -/
def dropOrder (moment : Drop → Int) : Drop → Drop → Ordering :=
  thenBy (fun a b => compare (moment a) (moment b)) (fun a b => compare a.id.value b.id.value)

def sortedBy {α : Type} (order : α → α → Ordering) (rows : List α) : List α :=
  rows.mergeSort fun a b => (order a b).isLE

/-! ### Queries -/

/-- All entries in their order. -/
def allEntries (s : Store) : List Entry := sortedBy entryOrder s.entries

/-- The entries of a transfer in the order of their numbers. -/
def entriesOf (s : Store) (event : Uuid) : List Entry :=
  sortedBy (fun a b => compare a.line b.line) (s.entries.filter (·.event == event))

/-- The entries from or to an account, as one page: so many after so many others. -/
def history (s : Store) (account : String) (limit offset : Option Int) : List Entry :=
  let rows := sortedBy entryOrder (s.entries.filter (·.touches account))
  limited limit (rows.drop (offset.getD 0).toNat)

/-- What an account sent and received in transfers. -/
structure Flow where
  sent : Amount
  received : Amount
  entries : Nat

/-- What an account sent and received. -/
def flow (s : Store) (account : String) : Flow :=
  let sent := s.entries.filter (·.source == account)
  let received := s.entries.filter (·.destination == account)
  ⟨Amount.sum (sent.map (·.amount)), Amount.sum (received.map (·.amount)),
    sent.length + received.length⟩

/-- The sum of all balances: what the wallet must cover. -/
def custodial (s : Store) : Amount := Amount.sum (s.accounts.map (·.balance))

/-- Whether entries can be added: none clashes with another one or with what is there, and the
accounts of each are there. -/
def Admits (s : Store) (rows : List Entry) : Prop :=
  rows.Pairwise (fun a b => ¬a.clashes b) ∧ (∀ row ∈ rows, ∀ e ∈ s.entries, ¬e.clashes row) ∧
    ∀ row ∈ rows, (s.account? row.source).isSome ∧ (s.account? row.destination).isSome

instance (s : Store) (rows : List Entry) : Decidable (s.Admits rows) :=
  inferInstanceAs (Decidable (_ ∧ _ ∧ _))

def drop? (s : Store) (id : Uuid) : Option Drop := s.drops.find? (·.id == id)

/-- The drops of a status, those due first at the front. -/
def dropsWith (s : Store) (status : Drop.Status) (limit : Option Int) : List Drop :=
  limited limit (sortedBy (dropOrder (·.deadline.instant)) (s.drops.filter (·.has status)))

/-- The drops due at a moment, the longest due first. -/
def due (s : Store) (asOf : Moment) (limit : Option Int) : List Drop :=
  limited limit (sortedBy (dropOrder (·.deadline.instant)) (s.drops.filter (·.isDue asOf)))

/-- When a drop was claimed; a drop that never was counts as claimed at the start of time. -/
def claimInstant (d : Drop) : Int := (d.claimedAt.map (·.instant)).getD 0

/-- The drops claimed at or before a moment and still settling, the longest claimed first. -/
def stalled (s : Store) (cutoff : Moment) : List Drop :=
  sortedBy (dropOrder claimInstant) (s.drops.filter fun d =>
    d.has .settling && (d.claimedAt.map fun m => decide (m.instant ≤ cutoff.instant)).getD false)

def updateDrop (s : Store) (id : Uuid) (f : Drop → Drop) : Store :=
  { s with drops := s.drops.map fun d => if d.id == id then f d else d }

end Store
end TipJar.Ledger
