import TipJar.Ledger.Drops

/-! Questions that a unit of work asks of the tables.

A row whose stored names are none of their families cannot be shown: the question
then fails, as reading the row would. Nobody is looked up by nothing. -/
namespace TipJar.Ledger

/-- An entry as it is shown; a stored kind that is none is found out here. -/
def readEntry (e : Entry) : Checked Entry := do
  let _ ← e.kind.get "TransferKind"
  return e

/-- Entries, each of which can be shown. -/
def shownEntries (ask : Store → List Entry) : Work (List Entry) := do
  Work.check ((← Work.read ask).mapM readEntry)

/-- Drops, each of which can be shown. -/
def shownDrops (ask : Store → List Drop) : Work (List Drop) := do
  Work.check ((← Work.read ask).mapM readDrop)

/-- The entries of a transfer, line by line. -/
def entriesOfEvent (event : Uuid) : Work (List Entry) := shownEntries (·.entriesOf event)

def everyEntry : Work (List Entry) := shownEntries (·.allEntries)

/-- The entries from or to an account, as one page. -/
def historyOf (who : Value) (limit offset : Option Int) : Work (List Entry) := do
  let key ← Work.check (lookupKey who)
  if let some n := limit then Work.column n
  if let some n := offset then Work.column n
  match key with
  | some name => shownEntries (·.history name limit offset)
  | none => shownEntries fun _ => []

/-- What an account sent and received. -/
def flowOf (who : Value) : Work Store.Flow := do
  match ← Work.check (lookupKey who) with
  | some name =>
    let flow ← Work.read (·.flow name)
    summed [flow.sent, flow.received]
    return flow
  | none => Work.read fun _ => ⟨.zero, .zero, 0⟩

/-- The balance of an account, if there is one. -/
def storedBalance (who : Value) : Work (Option Amount) := do
  let key ← Work.check (lookupKey who)
  Work.read fun s => (key.bind s.account?).map (·.balance)

/-- The sum of all balances. Once a balance has outgrown its column the sum is a floating-point
number too, and has no limit. -/
def custodialTotal : Work Amount := do
  let s ← Work.tables
  if ∀ a ∈ s.accounts, a.balance.units ≤ columnMax then
    summed [s.custodial]
    return s.custodial
  else return ⟨nearestFloat s.custodial.units⟩

def accountCount : Work Nat := Work.read (·.accounts.length)

/-- The drop of an identifier, if there is one. -/
def findDrop (id : Uuid) : Work (Option Drop) := do
  Work.check (((← Work.tables).drop? id).mapM readDrop)

/-- The drops of a status, those due first at the front. -/
def dropsOfStatus (status : Value) (limit : Option Int) : Work (List Drop) := do
  let status ← Work.check (readMember "ReactdropStatus" Drop.Status.ofText? status)
  if let some n := limit then Work.column n
  shownDrops (·.dropsWith status limit)

/-! ### Whole tables -/

namespace Store

/-- The accounts in the order of their names. -/
def accountsByName (s : Store) : List Account :=
  s.accounts.mergeSort fun a b => decide (a.name ≤ b.name)

/-- The entries in the order of their numbers. -/
def entriesByLine (s : Store) : List Entry := sortedBy (fun a b => compare a.line b.line) s.entries

/-- The drops in the order of their creation. -/
def dropsById (s : Store) : List Drop :=
  s.drops.mergeSort fun a b => decide (a.id.value ≤ b.id.value)

end Store

/-- Every account in the order of names, every entry, and every drop in the order of creation, each
of which can be shown. -/
def everything : Work (List AccountInfo × List Entry × List Drop) := do
  let accounts ← Work.check ((← Work.read (·.accountsByName)).mapM Account.info)
  let entries ← everyEntry
  return (accounts, entries, ← shownDrops (·.dropsById))

end TipJar.Ledger
