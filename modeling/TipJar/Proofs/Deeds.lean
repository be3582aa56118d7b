import Mathlib.Logic.Relation
import TipJar.Proofs.Lives

/-! Runs.

Commands, sweepers and the operator's tool share nothing but the tables, and touch
them only in units of work. A run is therefore a sequence of such units, in any
order and by whomever, and every question about many programs at once is one about
runs. `Deed` lists the units that write; units that only read leave no trace in a
run. Each is done at a desk of its own: nothing is known of its clock or of the
identifiers it hands out.

The tables do not tell everything that happened. What they leave out is kept in a
history, which no unit of work reads: what was deposited, which drops were claimed,
and what was paid out. -/
namespace TipJar
open Ledger

/-- What a unit of work did, as far as the tables alone do not tell. -/
inductive Mark
  | deposited (name : String) (amount : Amount)
  | claimed (drop : Drop)
  | paidOut (drop : Uuid) (receipt : Transfer.Receipt)

/-- A unit of work that writes. -/
inductive Deed
  | view (who : Value) (except : Option Uuid)
  | info (who : Value)
  | checkFunds (who : Value) (amount : Amount)
  | prefer (who preference : Value)
  | blacklist (who : Value) (blacklisted : Bool)
  | deposit (who : Value) (amount : Amount)
  | tip (i : Transfer.Intent) (minimum : Amount)
  | create (r : DropRequest)
  | claim (drop : Uuid)
  | payOut (sweeper : Sweeper) (claimed : Drop) (participants : List String)
  | expire (drop : Uuid)
  | fail (drop : Uuid) (reason : String) (participants : Option Int)
  | failStalled (asOf : Moment) (seconds : Value)

namespace Deed

/-- The work of a unit: what it adds to the history. -/
def work : Deed → Work (List Mark)
  | view who except => do
    let _ ← viewOf who except
    return []
  | info who => do
    let _ ← accountInfo who
    return []
  | checkFunds who amount => do
    let _ ← checkAvailable who amount
    return []
  | prefer who preference => do
    let _ ← setPreference who preference
    return []
  | blacklist who blacklisted => do
    let _ ← setBlacklisted who blacklisted
    return []
  | deposit who amount => do
    let _ ← Ledger.deposit who amount
    return [.deposited (who.text?.getD "") amount]
  | tip i minimum => do
    let _ ← execute i minimum none
    return []
  | create r => do
    let _ ← createDrop r
    return []
  | claim drop => do return [.claimed (← Ledger.claim drop (← Work.now))]
  | payOut sweeper claimed participants => do
    return [.paidOut claimed.id (← sweeper.payOut claimed participants)]
  | expire drop => do
    let _ ← markExpired drop (← Work.now)
    return []
  | fail drop reason participants => do
    let _ ← markFailed drop reason (← Work.now) participants
    return []
  | failStalled asOf seconds => do
    let _ ← Ledger.failStalled asOf seconds
    return []

/-- Which units are ever begun. A command tips, and leaves payouts to sweepers; a sweeper pays out
only what a claim has given it. -/
def Allowed (history : List Mark) : Deed → Prop
  | tip i _ => i.kind ≠ .drop
  | payOut sweeper claimed _ => sweeper.execute = execute ∧ .claimed claimed ∈ history
  | _ => True

/-- The units that end lives without a payout. -/
def IsClosing : Deed → Prop
  | expire _ | fail .. | failStalled .. => True
  | _ => False

end Deed

/-- The tables, and what was done so far. -/
structure State where
  store : Store
  history : List Mark

namespace State

/-- Nothing was done yet. -/
def start : State := ⟨.empty, []⟩

/-- The desk at which a unit of work is begun: it holds the tables as they are. -/
def begun (σ : State) (desk : Desk) : Desk :=
  { desk with tables := some σ.store, spoiled := false }

theorem holds_begun (σ : State) (desk : Desk) : (σ.begun desk).Holds σ.store := ⟨rfl, rfl⟩

/-- What a unit of work leaves, kept or undone. -/
def perform (σ : State) (deed : Deed) (operation : String) (desk : Desk) : State :=
  match (σ.begun desk).transact operation deed.work with
  | (.ok marks, after) => ⟨after.tables.getD σ.store, σ.history ++ marks⟩
  | (.error _, after) => ⟨after.tables.getD σ.store, σ.history⟩

/-- One unit of work after the other. -/
inductive Step : State → State → Prop
  | perform (σ : State) (deed : Deed) (operation : String) (desk : Desk)
      (allowed : deed.Allowed σ.history) : Step σ (σ.perform deed operation desk)

/-- Any number of units of work, in any order. -/
def Run : State → State → Prop := Relation.ReflTransGen Step

/-- The states that runs lead to. -/
def Reachable (σ : State) : Prop := Run start σ

theorem Reachable.run {σ τ : State} (h : σ.Reachable) (more : Run σ τ) : τ.Reachable :=
  Relation.ReflTransGen.trans h more

theorem Reachable.perform {σ : State} (h : σ.Reachable) (deed : Deed) (operation : String)
    (desk : Desk) (allowed : deed.Allowed σ.history) :
    (σ.perform deed operation desk).Reachable := h.tail (.perform σ deed operation desk allowed)

/-- What a unit of work that is kept gave. -/
theorem transact_begun_ok {σ : State} {α : Type} {operation : String} {work : Work α}
    {desk after : Desk} {a : α} :
    (σ.begun desk).transact operation work = (.ok a, after) ↔
      work.Gives (σ.begun desk) a after ∧ after.spoiled = false :=
  Desk.transact_ok.trans Desk.commit_ok

/-- A unit of work that fails changes nothing. -/
theorem perform_of_error {σ : State} {deed : Deed} {operation : String} {desk after : Desk}
    {why : Fault} (h : (σ.begun desk).transact operation deed.work = (.error why, after)) :
    σ.perform deed operation desk = σ := by
  have htables : after.tables = some σ.store := Desk.tables_transact_error h
  unfold State.perform
  rw [h]
  show (⟨after.tables.getD σ.store, σ.history⟩ : State) = σ
  rw [htables, Option.getD_some]

/-- A unit of work that succeeds is kept. -/
theorem perform_of_gives {σ : State} {deed : Deed} {marks : List Mark} {desk after : Desk}
    {t : Store}
    (h : deed.work.Gives (σ.begun desk) marks after) (ht : after.Holds t) (operation : String) :
    σ.perform deed operation desk = ⟨t, σ.history ++ marks⟩ := by
  unfold State.perform
  rw [transact_begun_ok.mpr ⟨h, ht.sound⟩]
  show (⟨after.tables.getD σ.store, σ.history ++ marks⟩ : State) = _
  rw [ht.tables, Option.getD_some]

/-- A unit of work changes nothing, or it succeeds and what it leaves is kept. -/
theorem perform_cases (σ : State) (deed : Deed) (operation : String) (desk : Desk) :
    σ.perform deed operation desk = σ ∨
      ∃ marks after, deed.work.Gives (σ.begun desk) marks after ∧
        σ.perform deed operation desk = ⟨after.tables.getD σ.store, σ.history ++ marks⟩ := by
  rcases h : (σ.begun desk).transact operation deed.work with ⟨why | marks, after⟩
  · exact .inl (perform_of_error h)
  · refine .inr ⟨marks, after, (transact_begun_ok.mp h).1, ?_⟩
    unfold State.perform
    rw [h]

end State

/-! ### A small run

Alice deposits ten units and puts seven of them aside; the drop is due at once and
claimed, and two guests share it. -/

namespace Sample

/-- The first moment of the calendar, and the one after it. -/
def opening : Moment := ⟨0, by decide, some 0⟩

def deadline : Moment := ⟨1, by decide, some 0⟩

/-- A desk that hands out numbers for identifiers, from one of them on. -/
def desk (next : Nat) : Desk :=
  { tables := none, ids := .ofNat, nextId := next, now := deadline, context := .empty, level := 0,
    lines := [], guarded := true, spoiled := false }

def request : DropRequest :=
  { initiator := .text "alice", token := "hand", amount := ⟨7⟩, channel := "town", message := "m1",
    openedAt := opening, deadline }

/-- The drop once it is claimed. -/
def drop : Drop := (request.row (.ofNat 1) "alice" opening deadline).asClaimed deadline

def sweeper : Sweeper := .unconfigured none execute

def guests : List String := ["bob", "carol"]

theorem named_guests : ∀ name ∈ guests, IsName name := by
  intro name hname
  rcases List.mem_pair.mp hname with rfl | rfl <;> rfl

def funded : State := State.start.perform (.deposit (.text "alice") ⟨10⟩) "deposit" (desk 0)

def created : State := funded.perform (.create request) "create_reactdrop" (desk 1)

def claimed : State := created.perform (.claim (.ofNat 1)) "claim_reactdrop" (desk 2)

def paid : State := claimed.perform (.payOut sweeper drop guests) "settle_reactdrop" (desk 3)

theorem reachable_funded : funded.Reachable :=
  State.Reachable.perform .refl (.deposit (.text "alice") ⟨10⟩) "deposit" (desk 0) trivial

theorem reachable_created : created.Reachable :=
  reachable_funded.perform (.create request) "create_reactdrop" (desk 1) trivial

theorem reachable_claimed : claimed.Reachable :=
  reachable_created.perform (.claim (.ofNat 1)) "claim_reactdrop" (desk 2) trivial

theorem mem_claimed : drop ∈ claimed.store.drops := by decide +kernel

theorem given_claimed : .claimed drop ∈ claimed.history := by
  show _ ∈ [Mark.deposited "alice" ⟨10⟩, .claimed drop]
  exact List.mem_cons_of_mem _ List.mem_cons_self

theorem reachable_paid : paid.Reachable :=
  reachable_claimed.perform _ "settle_reactdrop" (desk 3) ⟨rfl, given_claimed⟩

end Sample
end TipJar
