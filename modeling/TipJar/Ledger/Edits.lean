import TipJar.Ledger.Accounts

/-! Changes from outside.

Rows can be changed column by column, as a tool would do that knows nothing of
accounts and drops. The tables still keep their rules: names are unique, amounts
fit, entries belong to accounts. Such a tool changes its own copy of a row, which
may have been read a while ago, and then flushes what it changed. Flushes that
would change history are refused as long as the guard is up: those of an entry,
those that delete, and those of a drop whose life was over in the copy. -/
namespace TipJar.Ledger

/-- A change of columns, by name. -/
abbrev Changes := List (String × Value)

/-! ### Values of columns -/

/-- A text that a column must have. -/
def textColumn (v : Value) : Work String := do
  match ← Work.check (lookupKey v) with
  | some s => return s
  | none => Work.storeFails .violation

/-- A text that a column may have. -/
def textColumn? (v : Value) : Work (Option String) := do Work.check (lookupKey v)

/-- An amount that a column may have; a negative count breaks a rule of the tables. -/
def amountColumn? (v : Value) : Work (Option Amount) := do
  match v with
  | .scalar .null => return none
  | .scalar (.amount a) =>
    Work.column a.units
    return some a
  | .scalar (.int i) =>
    Work.column i
    if i < 0 then Work.storeFails .violation else return some ⟨i.toNat⟩
  | _ => Work.storeFails .unwritable

/-- What a column must have. -/
def needed {α : Type} (x : Work (Option α)) : Work α := do
  match ← x with
  | some a => return a
  | none => Work.storeFails .violation

def wholeColumn? (v : Value) : Work (Option Int) := do
  match v with
  | .scalar .null => return none
  | .scalar (.int i) =>
    Work.column i
    return some i
  | .scalar (.bool b) => return some (if b then 1 else 0)
  | _ => Work.storeFails .unsupported

def momentColumn? (v : Value) : Work (Option Moment) := do
  match v with
  | .scalar .null => return none
  | .scalar (.moment m) =>
    let _ ← Work.stored m
    return some m
  | _ => Work.storeFails .unwritable

def uuidColumn? (v : Value) : Work (Option Uuid) := do
  match v with
  | .scalar .null => return none
  | .scalar (.uuid u) => return some u
  | v =>
    match v.text?.map Uuid.parse with
    | some (.ok u) => return some u
    | _ => throw (.invalid .malformedUuid)

def boolColumn (v : Value) : Work Bool := do
  match v with
  | .scalar (.bool b) => return b
  | .scalar (.int 0) => return false
  | .scalar (.int 1) => return true
  | .scalar .null => Work.storeFails .violation
  | _ => Work.storeFails .unwritable

/-! ### Rows with a column changed -/

def Account.set (a : Account) (column : String) (v : Value) : Work Account := do
  match column with
  | "account_id" => return { a with name := ← textColumn v }
  | "balance" => return { a with balance := ← needed (amountColumn? v) }
  | "notification_preference" =>
    return { a with preference := (← textColumn? v).map (.ofText Preference.ofText?) }
  | "blacklisted" => return { a with blacklisted := ← boolColumn v }
  | _ => Work.storeFails .unknownColumn

/-- A moment that the tables keep for themselves. It must be there, in whatever time zone. -/
def bookkeptColumn (v : Value) : Work Unit := do
  match v with
  | .scalar (.moment _) | .scalar (.date _) => return
  | .scalar .null => Work.storeFails .violation
  | _ => Work.storeFails .unwritable

def entryColumns : List String :=
  ["id", "event_id", "line_no", "kind", "source", "destination", "amount", "recorded_at"]

def Entry.set (e : Entry) (column : String) (v : Value) : Work Entry := do
  match column with
  | "id" => return { e with id := ← needed (uuidColumn? v) }
  | "event_id" => return { e with event := ← needed (uuidColumn? v) }
  | "line_no" => return { e with line := ← needed (wholeColumn? v) }
  | "kind" => return { e with kind := .ofText Transfer.Kind.ofText? (← textColumn v) }
  | "source" => return { e with source := ← textColumn v }
  | "destination" => return { e with destination := ← textColumn v }
  | "amount" => return { e with amount := ← needed (amountColumn? v) }
  | "recorded_at" => return { e with recordedAt := ← needed (momentColumn? v) }
  | _ => return e

def dropColumns : List String :=
  ["id", "initiator", "trigger_token", "amount", "channel_ref", "message_ref", "status",
   "opened_at", "deadline", "claimed_at", "finished_at", "event_id", "participant_count",
   "moved_total", "failure_reason", "created_at", "updated_at"]

def setDrop (d : Drop) (column : String) (v : Value) : Work Drop := do
  match column with
  | "id" => return { d with id := ← needed (uuidColumn? v) }
  | "initiator" => return { d with initiator := ← textColumn v }
  | "trigger_token" => return { d with token := ← textColumn v }
  | "amount" =>
    let amount ← needed (amountColumn? v)
    if amount.units = 0 then Work.storeFails .violation
    return { d with amount }
  | "channel_ref" => return { d with channel := ← textColumn v }
  | "message_ref" => return { d with message := ← textColumn v }
  | "status" => return { d with status := .ofText Drop.Status.ofText? (← textColumn v) }
  | "opened_at" => return { d with openedAt := ← needed (momentColumn? v) }
  | "deadline" => return { d with deadline := ← needed (momentColumn? v) }
  | "claimed_at" => return { d with claimedAt := ← momentColumn? v }
  | "finished_at" => return { d with finishedAt := ← momentColumn? v }
  | "event_id" => return { d with event := ← uuidColumn? v }
  | "participant_count" => return { d with participants := ← wholeColumn? v }
  | "moved_total" => return { d with moved := ← amountColumn? v }
  | "failure_reason" => return { d with reason := ← textColumn? v }
  | "created_at" | "updated_at" =>
    bookkeptColumn v
    return d
  | _ => return d

def setDropAll (d : Drop) (changes : Changes) : Work Drop :=
  changes.foldlM (fun d (column, v) => setDrop d column v) d

/-- Whether an identifier is given to a drop that another has already. -/
def takesId (s : Store) (old new : Uuid) : Bool := new != old && (s.drop? new).isSome

/-- The moments of an entry, read in universal time. -/
def Entry.normal (e : Entry) : Entry :=
  { e with recordedAt := (e.recordedAt.toUtc?).getD e.recordedAt }

/-- The moments of a drop, read in universal time. -/
def normalDrop (d : Drop) : Drop :=
  let utc (m : Moment) := (m.toUtc?).getD m
  { d with deadline := utc d.deadline, openedAt := utc d.openedAt, claimedAt := d.claimedAt.map utc,
           finishedAt := d.finishedAt.map utc }

/-! ### Bare changes -/

/-- Changes columns of an account, if there is one of that name. -/
def editAccount (who : Value) (changes : Changes) : Work Unit := do
  let key ← Work.check (lookupKey who)
  let store ← Work.tables
  match key.bind store.account? with
  | none =>
    -- values are still brought into their columns' form
    let _ ← changes.foldlM (fun a (column, v) => a.set column v) (Account.opened "")
  | some account =>
    let changed ← changes.foldlM (fun a (column, v) => a.set column v) account
    if changed.name != account.name then
      if (store.account? changed.name).isSome || store.entries.any (·.touches account.name) then
        Work.storeFails .violation
    Work.write (·.updateAccount account.name fun _ => changed)

/-- Changes columns of a drop, if there is one of that identifier. -/
def editDrop (id : Uuid) (changes : Changes) : Work Unit := do
  if changes.any fun (column, _) => !dropColumns.contains column then Work.storeFails .unknownColumn
  if let some d := (← Work.tables).drop? id then
    let changed ← setDropAll d changes
    if takesId (← Work.tables) id changed.id then Work.storeFails .violation
    Work.write (·.updateDrop id fun _ => normalDrop changed)

/-! ### Guarded changes -/

/-- Refuses a change of history while the guard is up. The identifier is shown in the refusal. -/
def guardHistory (shown : Checked String) (change : FrozenChange) : Work Unit := do
  if (← getThe Desk).guarded then
    let id ← Work.check shown
    Work.note .error "db.immutability" "immutability_violation_blocked"
      [("entity_type", .text change.entity), ("entity_id", .text id),
       ("operation", .text change.operation)]
    Work.refuse (.frozen id change)

/-- Whether any of the columns is assigned to. What is no column is no change. -/
def touches (columns : List String) (changes : Changes) : Bool :=
  changes.any fun (column, _) => columns.contains column

/-- The identifier that a copy shows after its changes, which may be any value that has a text. -/
def shownId (id : Uuid) (changes : Changes) : Checked String :=
  match changes.find? (·.1 == "id") with
  | some (_, v) => Checked.ofArithmetic v.plain
  | none => .ok id.text

def flushEntryDeletion (id : Uuid) : Work Unit :=
  Work.flushing do
    guardHistory (.ok id.text) .entryDeleted
    Work.write fun s => { s with entries := s.entries.filter (·.id != id) }

/-- Flushes the changes of a copy of an entry. The answer shows the moments as they were given. -/
def flushEntry (seen : Entry) (changes : Changes) : Work Entry := do
  if !touches entryColumns changes then return seen
  Work.flushing do
    guardHistory (shownId seen.id changes) .entryChanged
    let changed ← changes.foldlM (fun e (column, v) => e.set column v) seen
    let store ← Work.tables
    let others := store.entries.filter (·.id != seen.id)
    if others.any changed.clashes then Work.storeFails .violation
    if (store.account? changed.source).isNone || (store.account? changed.destination).isNone then
      Work.storeFails .violation
    Work.write fun s =>
      { s with entries := s.entries.map fun o => if o.id == seen.id then changed.normal else o }
    return changed

/-- The drop of an identifier, which the store must have. -/
def storedDrop (id : Uuid) : Work Drop := do
  match (← Work.tables).drop? id with
  | some d => return d
  | none => Work.storeFails .noRow

/-- A session's copy of a drop. -/
inductive DropCopy
  /-- The row as it was when it was read. It may have changed since. -/
  | seen (d : Drop)
  /-- What was read was let go of, as happens when a unit of work is given up. -/
  | gone (id : Uuid)

namespace DropCopy

def id : DropCopy → Uuid
  | seen d => d.id
  | gone id => id

/-- The row as the copy has it, read again if it was let go of. -/
def read : DropCopy → Work Drop
  | seen d => pure d
  | gone id => storedDrop id

/-- The status that the copy had before its changes. It is not known of one that was let go of and
then assigned a status, since what was there is not read for that. -/
def statusBefore (changes : Changes) : DropCopy → Work (Option (Stored Drop.Status))
  | seen d => return some d.status
  | gone id => do
    if touches ["status"] changes then return none
    return some (← storedDrop id).status

end DropCopy

/-- A row with those columns changed that differ between two versions of a copy. -/
def mergeDrop (seen changed row : Drop) : Drop :=
  let pick {α : Type} [DecidableEq α] (column : Drop → α) : α :=
    if column changed = column seen then column row else column changed
  { id := pick (·.id), initiator := pick (·.initiator), token := pick (·.token),
    amount := pick (·.amount), channel := pick (·.channel), message := pick (·.message),
    deadline := pick (·.deadline), status := pick (·.status), openedAt := pick (·.openedAt),
    claimedAt := pick (·.claimedAt), finishedAt := pick (·.finishedAt), event := pick (·.event),
    participants := pick (·.participants), moved := pick (·.moved), reason := pick (·.reason) }

/-- Refuses the flush of a drop whose life was over in the copy, while the guard is up. -/
def guardDrop (c : DropCopy) (changes : Changes) : Work Unit := do
  if (← getThe Desk).guarded then
    if let some stored ← c.statusBefore changes then
      let status ← Work.check (stored.get "ReactdropStatus")
      if status.isTerminal then guardHistory (shownId c.id changes) (.dropChanged status.text)

def flushDropDeletion (id : Uuid) : Work Unit :=
  Work.flushing do
    guardHistory (.ok id.text) .dropDeleted
    Work.write fun s => { s with drops := s.drops.filter (·.id != id) }

/-- Writes what was changed of a copy into the row. -/
def writeDrop (c : DropCopy) (changes : Changes) : Work Drop := do
  let seen ← c.read
  let changed ← setDropAll seen changes
  let store ← Work.tables
  if (store.drop? c.id).isNone then Work.storeFails .goneRow
  if takesId store c.id changed.id then Work.storeFails .violation
  Work.write (·.updateDrop c.id (mergeDrop seen (normalDrop changed)))
  return changed

/-- Flushes the changes of a copy of a drop. The answer shows the moments as they were given. -/
def flushDrop (c : DropCopy) (changes : Changes) : Work Drop :=
  if touches dropColumns changes then
    Work.flushing do
      guardDrop c changes
      writeDrop c changes
  else c.read

/-! ### Changes of rows just read -/

/-- The entry at a place among all entries; places from the end are negative. -/
def entryAt (index : Int) : Work Entry := do
  let rows := (← Work.tables).allEntries
  let place := if index < 0 then index + rows.length else index
  match if place < 0 then none else rows[place.toNat]? with
  | some e => return e
  | none => throw .noPlace

def deleteEntry (index : Int) : Work Unit := do flushEntryDeletion (← entryAt index).id

def changeEntry (index : Int) (changes : Changes) : Work Entry := do
  flushEntry (← entryAt index) changes

def deleteDrop (id : Uuid) : Work Unit := do flushDropDeletion (← storedDrop id).id

def changeDrop (id : Uuid) (changes : Changes) : Work Drop := do
  let d ← storedDrop id
  flushDrop (.seen d) changes

end TipJar.Ledger
