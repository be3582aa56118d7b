import TipJar.Proofs.Changes

/-! Balances that stay within their columns.

The store goes on with a balance that has outgrown its column, but no longer
calculates exactly with it. What is promised of balances and holds is therefore
promised for as long as no balance has outgrown its column, at any time: a state
may look sound again after a sum was rounded. Only deposits and transfers move
balances, so it is enough to look at the tables between units of work. -/
namespace TipJar
open Ledger

namespace Ledger

/-- Whether all balances fit their columns. -/
def Store.Bounded (s : Store) : Prop := ∀ name, (s.balance name).units ≤ columnMax

theorem Store.balance_le_of_accounts {s : Store} {bound : Int} (positive : 0 ≤ bound)
    (h : ∀ a ∈ s.accounts, (a.balance.units : Int) ≤ bound) (name : String) :
    (s.balance name).units ≤ bound := by
  unfold balance
  cases haccount : s.account? name with
  | none => exact positive
  | some a => exact h a (Rows.mem_of_find? Account.name haccount)

theorem Store.bounded_of_accounts {s : Store}
    (h : ∀ a ∈ s.accounts, (a.balance.units : Int) ≤ columnMax) : s.Bounded :=
  balance_le_of_accounts (by decide) h

theorem Desk.rowsFor_ne_nil {desk : Desk} {i : Transfer.Intent} {minimum : Amount} {utc : Moment}
    (proper : i.check minimum = .ok ()) : desk.rowsFor i utc ≠ [] := by
  intro hnil
  have hdestinations : (desk.rowsFor i utc).map (·.destination) = i.destinations := by
    unfold rowsFor
    rw [map_destination_entriesFor, map_fst_stamp]
  rw [hnil] at hdestinations
  exact (Transfer.Intent.check_ok.mp proper).1 hdestinations.symm

end Ledger

namespace State
variable {σ τ : State}

/-! ### Changes -/

/-- A change between tables whose balances fit their columns. -/
structure BoundedChange (σ τ : State) : Prop where
  change : Change σ τ
  before : σ.store.Bounded
  after : τ.store.Bounded

/-- Whatever is no transfer can only let balances grow. -/
theorem Quiet.bounded (quiet : Quiet σ τ) (after : τ.store.Bounded) : σ.store.Bounded := by
  obtain ⟨change, same⟩ := quiet
  intro name
  have hafter := after name
  cases change with
  | opened => rwa [Store.balance_withAccount] at hafter
  | set unchanged =>
    rwa [Store.balance_updateAccount _ _ _ (fun a => (unchanged a).1)
      (fun a => (unchanged a).2)] at hafter
  | @deposited s history depositor amount there =>
    rw [Store.balance_credit _ _ _ _ there] at hafter
    split at hafter
    · exact Int.le_trans (Int.ofNat_le.mpr (Nat.le_add_right _ amount.units))
        (columnSum_fits.mp hafter)
    · exact hafter
  | tipped tip pays =>
    rw [Store.entries_transferred, List.append_right_eq_self] at same
    exact absurd same (Desk.rowsFor_ne_nil pays.proper)
  | paidOut given pays =>
    rw [Store.entries_paidOut, List.append_right_eq_self] at same
    exact absurd same (Desk.rowsFor_ne_nil pays.proper)
  | created | claimed | closed => exact hafter

theorem bounded_of_quiet (h : Relation.ReflTransGen Quiet σ τ) (after : τ.store.Bounded) :
    Relation.ReflTransGen BoundedChange σ τ := by
  induction h with
  | refl => exact .refl
  | tail _ quiet ih =>
    have before := quiet.bounded after
    exact (ih before).tail ⟨quiet.1, before, after⟩

/-! ### Runs -/

/-- The states that runs lead to in which no balance ever outgrows its column. -/
def Contained (σ : State) : Prop :=
  Relation.ReflTransGen (fun σ τ => Step σ τ ∧ τ.store.Bounded) start σ

theorem bounded_start : start.store.Bounded := Store.bounded_of_accounts nofun

theorem Contained.reachable (h : σ.Contained) : σ.Reachable := h.lift id fun _ _ step => step.1

theorem Contained.reached (h : σ.Contained) : σ.Reached := h.reachable.reached

theorem Contained.bounded (h : σ.Contained) : σ.store.Bounded := by
  cases h with
  | refl => exact bounded_start
  | tail _ step => exact step.2

theorem Contained.perform (h : σ.Contained) (deed : Deed) (operation : String) (desk : Desk)
    (allowed : deed.Allowed σ.history) (bounded : (σ.perform deed operation desk).store.Bounded) :
    (σ.perform deed operation desk).Contained :=
  h.tail ⟨.perform σ deed operation desk allowed, bounded⟩

/-- One more step or none. -/
theorem Contained.next (h : σ.Contained) (step : Relation.ReflGen Step σ τ)
    (bounded : τ.store.Bounded) : τ.Contained := by
  cases step with
  | refl => exact h
  | single step => exact h.tail ⟨step, bounded⟩

theorem Step.boundedChanges (step : Step σ τ) (before : σ.store.Bounded)
    (after : τ.store.Bounded) : Relation.ReflTransGen BoundedChange σ τ := by
  obtain ⟨deed, operation, desk, allowed⟩ := step
  rcases σ.perform_cases deed operation desk with hsame | ⟨marks, left, hgives, hleft⟩
  · rw [hsame]
  · obtain ⟨t, ht, hchanges⟩ := changes_of_gives allowed (σ.holds_begun desk) hgives
    rw [ht.tables, Option.getD_some] at hleft
    rw [hleft] at after ⊢
    rcases hchanges with change | hquiet
    · exact .single ⟨change, before, after⟩
    · exact bounded_of_quiet hquiet after

theorem Contained.changes (h : σ.Contained) : Relation.ReflTransGen BoundedChange start σ := by
  induction h with
  | refl => exact .refl
  | tail run step ih => exact ih.trans (step.1.boundedChanges (Contained.bounded run) step.2)

/-- What holds at the start, and is kept by every change between tables whose balances fit their
columns, holds for as long as no balance has outgrown its own. -/
theorem Contained.induct {P : State → Prop} (h : σ.Contained) (first : P start)
    (next : ∀ {σ τ}, σ.Reached → BoundedChange σ τ → P σ → P τ) : P σ := by
  have hchanges := h.changes
  clear h
  induction hchanges with
  | refl => exact first
  | tail before change ih => exact next (before.lift id fun _ _ change => change.change) change ih

end State

/-! ### The small run -/

namespace Sample

theorem contained_funded : funded.Contained :=
  State.Contained.perform .refl (.deposit (.text "alice") ⟨10⟩) "deposit" (desk 0) trivial
    (Store.bounded_of_accounts (by decide +kernel))

theorem contained_created : created.Contained :=
  contained_funded.perform (.create request) "create_reactdrop" (desk 1) trivial
    (Store.bounded_of_accounts (by decide +kernel))

theorem contained_claimed : claimed.Contained :=
  contained_created.perform (.claim (.ofNat 1)) "claim_reactdrop" (desk 2) trivial
    (Store.bounded_of_accounts (by decide +kernel))

end Sample
end TipJar
