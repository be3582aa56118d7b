import TipJar.Proofs.Bounds

/-! Every hold is covered.

As long as balances stay within their columns, what an account's drops hold never
exceeds its balance. The reason is not that balances and holds move together: a
payout takes from the balance while the hold is still there, and counts on the drop
to release it at the end of the same unit of work. What carries the invariant is
that every debit leaves all holds covered but the one it is told to leave out, and
that this one is the hold the payout releases. -/
namespace TipJar
open Ledger

namespace Drop

@[simp] theorem id_closed (d : Drop) (ending : Ending) : (d.closed ending).id = d.id := by
  cases ending <;> rfl

@[simp] theorem isHolding_closed (d : Drop) (ending : Ending) :
    (d.closed ending).isHolding = false := by
  cases ending with
  | expired time => exact d.isHolding_asExpired time
  | failed reason participants time => exact d.isHolding_asFailed reason participants time

/-- A drop holds its amount on the account of its initiator. -/
theorem heldOf_of_holding {d : Drop} (h : d.isHolding = true) (name : String) :
    d.heldOf name none = if d.initiator = name then d.amount.units else 0 := by
  simp [heldOf, h]

end Drop

namespace State
variable {σ τ : State}

/-! ### Keys -/

/-- No account is ever opened twice. -/
theorem Reached.namesDiffer (h : σ.Reached) : σ.store.NamesDiffer := by
  induction h with
  | refl => exact List.nodup_nil
  | tail _ change ih =>
    cases change with
    | opened => exact Store.namesDiffer_withAccount _ ih
    | set same => exact Store.namesDiffer_updateAccount _ (fun a => (same a).1) ih
    | deposited => exact Store.namesDiffer_credit _ _ ih
    | tipped => exact Store.namesDiffer_transferred _ ih
    | @paidOut _ _ desk d _ participants _ utc =>
      exact Store.namesDiffer_transferred (desk.rowsFor (d.payment participants) utc) ih
    | created | claimed | closed => exact ih

/-- No identifier of a drop is ever given to another one. -/
theorem Reached.idsDiffer (h : σ.Reached) : σ.store.IdsDiffer := by
  induction h with
  | refl => exact List.nodup_nil
  | tail _ change ih =>
    cases change with
    | opened => exact (Store.idsDiffer_congr (Store.drops_withAccount _ _)).mpr ih
    | set | deposited => exact ih
    | tipped => exact (Store.idsDiffer_congr (Store.drops_transferred _ _)).mpr ih
    | created there creates =>
      have hfresh := (Rows.find?_eq_none Drop.id).mp ((Store.drop?_eq _ _).symm.trans creates.fresh)
      unfold Store.IdsDiffer Store.withDrop
      rw [List.map_append, List.nodup_append]
      refine ⟨ih, by simp, ?_⟩
      intro a ha b hb
      obtain ⟨d, hd, rfl⟩ := List.mem_map.mp ha
      rw [List.mem_singleton.mp hb]
      exact hfresh d hd
    | claimed => exact Store.idsDiffer_updateDrop _ (fun _ => rfl) ih
    | paidOut =>
      exact Store.idsDiffer_updateDrop _ (fun _ => rfl)
        ((Store.idsDiffer_congr (Store.drops_transferred _ _)).mpr ih)
    | closed => exact Store.idsDiffer_updateDrop _ (fun d => d.id_closed _) ih

end State

/-! ### Holds -/

namespace Ledger.Store

/-- A drop that is claimed goes on holding. -/
theorem held_claimed {s : Store} {id : Uuid} {row : Drop} (hi : s.IdsDiffer)
    (found : s.drop? id = some row) (pending : row.has .pending = true) (time : Moment)
    (name : String) :
    ((s.updateDrop id (·.asClaimed time)).held name none).units = (s.held name none).units := by
  refine held_updateDrop_of_eq s name none id fun d hd hid => ?_
  rw [eq_of_drop? id hi hd hid found]
  exact Drop.heldOf_asClaimed pending time name none

/-- Every hold is covered by the balance it is on. -/
def Covered (s : Store) : Prop :=
  ∀ name, (s.held name none).units ≤ (s.balance name).units

section Transferred
variable {s : Store} {desk : Desk} {i : Transfer.Intent} {minimum : Amount} {except : Option Uuid}
  {utc : Moment} (pays : desk.CanPay s i minimum except utc) (before : s.Bounded)
  (after : (s.transferred i (desk.rowsFor i utc)).Bounded)
include pays before after

/-- Between tables whose balances fit their columns a transfer moves all shares, and no more. -/
theorem balance_transferred_exactly (name : String) :
    ((s.transferred i (desk.rowsFor i utc)).balance name).units +
        (if i.source = name then i.split.moved.units else 0) =
      (s.balance name).units + (if name ∈ i.destinations then i.split.share.units else 0) := by
  obtain ⟨-, different, apart, -⟩ := Transfer.Intent.check_ok.mp pays.proper
  have hcovered := (covers_iff_of_fits except (before i.source)).mp pays.covered
  exact balance_transferred_of_fits _ different apart (before i.source)
    (Nat.le_of_add_left_le hcovered) (room_of_transferred different apart (after name))

/-- A transfer that leaves all holds covered but those it may use leaves them covered when it is
done. -/
theorem held_le_balance_transferred {name : String}
    (h : (s.held name except).units ≤ (s.balance name).units) :
    (s.held name except).units ≤ ((s.transferred i (desk.rowsFor i utc)).balance name).units := by
  have hmoved := balance_transferred_exactly pays before after name
  by_cases hsource : i.source = name
  · subst hsource
    have hcovered := (covers_iff_of_fits except (before i.source)).mp pays.covered
    rw [if_pos rfl] at hmoved
    omega
  · rw [if_neg hsource] at hmoved
    omega

end Transferred

end Ledger.Store

namespace State
variable {σ τ : State}

/-- No change uncovers a hold. -/
theorem covered_change (hi : σ.store.IdsDiffer) (bounded : BoundedChange σ τ)
    (h : σ.store.Covered) : τ.store.Covered := by
  obtain ⟨change, before, after⟩ := bounded
  intro name
  have hbefore := h name
  cases change with
  | opened named =>
    rw [Store.balance_withAccount, Store.held_congr name none (Store.drops_withAccount _ _)]
    exact hbefore
  | set same =>
    rw [Store.balance_updateAccount _ _ _ (fun a => (same a).1) (fun a => (same a).2)]
    exact hbefore
  | deposited there =>
    have hafter := after name
    rw [Store.balance_credit _ _ _ _ there] at hafter ⊢
    split at hafter
    · next same =>
      rw [if_pos same, columnSum_of_fits (columnSum_fits.mp hafter)]
      exact Nat.le_add_right_of_le hbefore
    · next other =>
      rw [if_neg other]
      exact hbefore
  | tipped tip pays =>
    rw [Store.held_congr name none (Store.drops_transferred _ _)]
    exact Store.held_le_balance_transferred pays before after hbefore
  | @created s _ desk r initiator openedAt deadline there creates =>
    unfold Store.withDrop
    rw [Store.held_append, Drop.heldOf_of_holding rfl]
    show _ + (if initiator = name then r.amount.units else 0) ≤ (s.balance name).units
    by_cases hname : initiator = name
    · -- The new hold is the amount that was found to be available.
      rw [if_pos hname, ← hname]
      exact creates.covered
    · rw [if_neg hname]
      exact hbefore
  | claimed found pending =>
    rw [Store.held_claimed hi found pending]
    exact hbefore
  | @paidOut s _ desk d _ participants minimum utc given pays found settling =>
    -- The debit was allowed to use the hold of the drop, and the drop releases just that.
    have hreleased := Store.held_release (s.transferred (d.payment participants)
      (desk.rowsFor (d.payment participants) utc)) name d.id
      (f := (·.asSettled (desk.ids desk.nextId) participants.length
        (d.payment participants).split.moved utc)) fun _ => Drop.isHolding_asSettled ..
    unfold Store.paidOut
    rw [hreleased, Store.held_congr name (some d.id) (Store.drops_transferred _ _)]
    exact Store.held_le_balance_transferred pays before after
      (Nat.le_trans (Store.held_except_le s name d.id) hbefore)
  | @closed s _ id _ ending found settling =>
    rw [Store.held_release s name id fun d => d.isHolding_closed ending]
    exact Nat.le_trans (Store.held_except_le s name id) hbefore

theorem Contained.covered (h : σ.Contained) : σ.store.Covered :=
  h.induct (fun _ => Nat.le_refl 0) fun before change => covered_change before.idsDiffer change

/-- The store calculates exactly with what any account has. -/
theorem Contained.counts (h : σ.Contained) (name : String) (except : Option Uuid) :
    σ.store.Counts name except :=
  Store.Counts.leaving ⟨h.bounded name,
    Int.le_trans (Int.ofNat_le.mpr (h.covered name)) (h.bounded name)⟩ except

/-- As long as no balance outgrows its column, what the pending and settling drops of an account
hold is covered by its balance. So whatever is tipped, put aside or paid out next leaves all holds
untouched, a payout all but its own. -/
theorem holds_always_covered (h : σ.Contained) :
    (∀ name, (σ.store.held name none).units ≤ (σ.store.balance name).units) ∧
      (∀ i minimum operation desk receipt after,
        (σ.begun desk).transact operation (execute i minimum none) = (.ok receipt, after) →
          (σ.store.held i.source none).units + receipt.moved.units ≤
            (σ.store.balance i.source).units) ∧
      (∀ r operation desk drop after,
        (σ.begun desk).transact operation (createDrop r) = (.ok drop, after) →
          (σ.store.held drop.initiator none).units + drop.amount.units ≤
            (σ.store.balance drop.initiator).units) ∧
      ∀ (sweeper : Sweeper) d participants operation desk receipt after,
        sweeper.execute = execute →
        (σ.begun desk).transact operation (sweeper.payOut d participants) = (.ok receipt, after) →
          (σ.store.held d.initiator (some d.id)).units + receipt.moved.units ≤
            (σ.store.balance d.initiator).units := by
  refine ⟨h.covered, ?_, ?_, ?_⟩
  · intro i minimum operation desk receipt after hkept
    obtain ⟨s, _, hs, hpays, rfl, -⟩ := execute_gives.mp (transact_begun_ok.mp hkept).1
    obtain rfl := (σ.holds_begun desk).unique hs
    exact (Store.covers_iff_of_fits _ (h.bounded _)).mp hpays.covered
  · intro r operation desk drop after hkept
    obtain ⟨s, _, _, _, hs, hcreates, rfl, -⟩ := createDrop_gives.mp (transact_begun_ok.mp hkept).1
    obtain rfl := (σ.holds_begun desk).unique hs
    exact hcreates.covered
  · intro sweeper d participants operation desk receipt after hexecute hkept
    obtain ⟨s, _, _, hs, hpays, -, -, rfl, -⟩ :=
      (payOut_gives hexecute).mp (transact_begun_ok.mp hkept).1
    obtain rfl := (σ.holds_begun desk).unique hs
    exact (Store.covers_iff_of_fits _ (h.bounded _)).mp hpays.covered

theorem holds_covered_once_claimed :
    (Sample.claimed.store.held "alice" none).units = 7 ∧
      7 ≤ (Sample.claimed.store.balance "alice").units :=
  ⟨by decide +kernel, by
    have hcovered := (holds_always_covered Sample.contained_claimed).1 "alice"
    rwa [show (Sample.claimed.store.held "alice" none).units = 7 by decide +kernel] at hcovered⟩

end State
end TipJar
