import TipJar.Proofs.Balances

/-! Holds.

What an account's drops hold of its balance is nowhere written down: it is summed
up from the rows each time. So every write on drops moves it indirectly, and how
is said here: a new drop adds its amount, a drop that changes from one holding
status to another keeps it, and a drop whose life ends releases exactly what was
left out for it while it was being paid. -/
namespace TipJar

/-- What a drop holds of the balance of a name; one drop may be left out. -/
def Drop.heldOf (name : String) (except : Option Uuid) (d : Drop) : Nat :=
  if d.isHolding && d.initiator == name && except != some d.id then d.amount.units else 0

namespace Ledger.Store

/-- No two drops have the same identifier. -/
def IdsDiffer (s : Store) : Prop := (s.drops.map (·.id)).Nodup

variable (s : Store) (name : String) (except : Option Uuid) (id : Uuid)

theorem drop?_eq : s.drop? id = Rows.find? Drop.id s.drops id := rfl

theorem id_of_drop? {d : Drop} (h : s.drop? id = some d) : d.id = id := Rows.key_of_find? Drop.id h

theorem mem_of_drop? {d : Drop} (h : s.drop? id = some d) : d ∈ s.drops :=
  Rows.mem_of_find? Drop.id h

theorem drop?_of_mem {s : Store} (hi : s.IdsDiffer) {d : Drop} (h : d ∈ s.drops) :
    s.drop? d.id = some d := Rows.find?_of_mem Drop.id hi h

/-- The row that an identifier finds is the only one that has it. -/
theorem eq_of_drop? {s : Store} (hi : s.IdsDiffer) {d row : Drop} (h : d ∈ s.drops)
    (hid : d.id = id) (found : s.drop? id = some row) : d = row :=
  Rows.eq_of_key Drop.id hi h (mem_of_drop? s id found) (hid.trans (id_of_drop? s id found).symm)

/-- Drops are found among the drops alone. -/
theorem drop?_congr {s t : Store} (h : s.drops = t.drops) : s.drop? id = t.drop? id := by
  rw [drop?_eq, h, ← drop?_eq]

theorem idsDiffer_congr {s t : Store} (h : s.drops = t.drops) : s.IdsDiffer ↔ t.IdsDiffer := by
  unfold IdsDiffer
  rw [h]

theorem units_held : (s.held name except).units = (s.drops.map (Drop.heldOf name except)).sum := by
  unfold held holding
  rw [Amount.units_sum, List.map_map]
  exact Rows.sum_filter _ _

/-- Holds are read from drops alone. -/
theorem held_congr {s t : Store} (h : s.drops = t.drops) :
    s.held name except = t.held name except := by
  unfold held holding
  rw [h]

theorem held_append (row : Drop) :
    (Store.held { s with drops := s.drops ++ [row] } name except).units =
      (s.held name except).units + row.heldOf name except := by
  rw [units_held, units_held, List.map_append, List.sum_append, List.map_singleton,
    List.sum_singleton]

/-- Opening accounts moves no hold. -/
theorem held_opened (names : List String) : (s.opened names).held name except = s.held name except :=
  held_congr name except (s.drops_opened names)

/-! ### What is covered -/

/-- Whether the store calculates exactly with what an account has: its balance fits a column, and so
do its holds together. -/
structure Counts : Prop where
  balance : (s.balance name).units ≤ columnMax
  held : (s.held name except).units ≤ columnMax

/-- Opening accounts moves nothing, so as much is covered as before. -/
theorem covers_opened (names : List String) (amount : Amount) :
    (s.opened names).Covers name except amount ↔ s.Covers name except amount := by
  unfold Covers
  rw [held_opened, balance_opened]

variable {s name} in
/-- A balance that fits its column covers an amount if the holds fit it together with the amount. -/
theorem covers_iff_of_fits (fits : (s.balance name).units ≤ columnMax) {amount : Amount} :
    s.Covers name except amount ↔
      (s.held name except).units + amount.units ≤ (s.balance name).units := by
  unfold Covers
  rw [columnDifference_of_fits fits]
  omega

/-! ### A drop changed -/

section Update
variable {f : Drop → Drop}

theorem drop?_updateDrop (hf : ∀ d, (f d).id = d.id) (other : Uuid) :
    (s.updateDrop id f).drop? other = if other = id then (s.drop? id).map f else s.drop? other :=
  Rows.find?_update Drop.id hf

theorem idsDiffer_updateDrop {s : Store} (hf : ∀ d, (f d).id = d.id) (h : s.IdsDiffer) :
    (s.updateDrop id f).IdsDiffer := by
  show ((Rows.update Drop.id s.drops id f).map Drop.id).Nodup
  rw [Rows.map_key_update Drop.id hf]
  exact h

/-- Other drops stay. -/
theorem mem_updateDrop_of_ne {s : Store} {d : Drop} (h : d ∈ s.drops) (hne : d.id ≠ id) :
    d ∈ (s.updateDrop id f).drops := Rows.mem_update_of_ne Drop.id h hne

theorem mem_updateDrop {s : Store} (hi : s.IdsDiffer) {d e : Drop} (h : s.drop? id = some d) :
    e ∈ (s.updateDrop id f).drops ↔ e = f d ∨ (e ∈ s.drops ∧ e.id ≠ id) :=
  Rows.mem_update Drop.id hi (mem_of_drop? s id h) (id_of_drop? s id h)

/-- A drop that holds as much as before leaves all holds as they are. -/
theorem held_updateDrop_of_eq
    (h : ∀ d ∈ s.drops, d.id = id → (f d).heldOf name except = d.heldOf name except) :
    ((s.updateDrop id f).held name except).units = (s.held name except).units := by
  rw [units_held, units_held]
  exact Rows.sum_update_of_eq Drop.id _ h

/-- A drop that holds nothing any more releases exactly what would be left out for it. -/
theorem held_release (hf : ∀ d, (f d).isHolding = false) :
    ((s.updateDrop id f).held name none).units = (s.held name (some id)).units := by
  rw [units_held, units_held]
  show ((Rows.update Drop.id s.drops id f).map _).sum = _
  unfold Rows.update
  rw [List.map_map]
  congr 1
  apply List.map_congr_left
  intro d _
  by_cases h : d.id = id
  · simp [Drop.heldOf, h, hf]
  · simp [Drop.heldOf, h, Ne.symm h]

end Update

/-! ### One drop left out -/

/-- Leaving a drop out leaves no more held. -/
theorem held_except_le : (s.held name (some id)).units ≤ (s.held name none).units := by
  rw [units_held, units_held]
  apply List.sum_le_sum
  intro d _
  unfold Drop.heldOf
  by_cases hd : d.isHolding && d.initiator == name
  · by_cases h : id = d.id <;> simp [hd, h]
  · simp [hd]

/-- What is counted exactly with all holds is counted exactly without one of them. -/
theorem Counts.leaving {s : Store} {name : String} (h : s.Counts name none)
    (except : Option Uuid) : s.Counts name except := by
  refine ⟨h.balance, ?_⟩
  cases except with
  | none => exact h.held
  | some id => exact Int.le_trans (Int.ofNat_le.mpr (s.held_except_le name id)) h.held

/-- Leaving out a drop that holds leaves out its amount. -/
theorem held_except_add {s : Store} (hi : s.IdsDiffer) {d : Drop} (hmem : d ∈ s.drops)
    (hd : d.isHolding = true) :
    (s.held d.initiator (some d.id)).units + d.amount.units = (s.held d.initiator none).units := by
  have hended : ∀ d : Drop, ({ d with status := .known .expired } : Drop).isHolding = false :=
    fun _ => rfl
  have hsum := Rows.sum_update Drop.id (f := fun d => { d with status := .known .expired })
    (Drop.heldOf d.initiator none) hi hmem rfl
  have hbefore : d.heldOf d.initiator none = d.amount.units := by simp [Drop.heldOf, hd]
  have hafter : Drop.heldOf d.initiator none { d with status := .known .expired } = 0 := by
    simp [Drop.heldOf, hended]
  have hreleased := held_release s d.initiator d.id hended
  rw [units_held] at hreleased
  rw [units_held s d.initiator none]
  have hrows : (s.updateDrop d.id fun d => { d with status := .known .expired }).drops =
      Rows.update Drop.id s.drops d.id fun d => { d with status := .known .expired } := rfl
  rw [hrows] at hreleased
  omega

end Ledger.Store

/-! ### What each step of a life holds -/

namespace Drop

theorem isHolding_of_pending {d : Drop} (h : d.has .pending = true) : d.isHolding = true := by
  simp [isHolding, h]

theorem isHolding_of_settling {d : Drop} (h : d.has .settling = true) : d.isHolding = true := by
  simp [isHolding, h]

/-- A claimed drop holds what it held when it was pending. -/
theorem heldOf_asClaimed {d : Drop} (h : d.has .pending = true) (time : Moment) (name : String)
    (except : Option Uuid) : (d.asClaimed time).heldOf name except = d.heldOf name except := by
  have hclaimed : (d.asClaimed time).isHolding = true := rfl
  unfold heldOf
  rw [hclaimed, isHolding_of_pending h]
  rfl

@[simp] theorem isHolding_asSettled (d : Drop) (event : Uuid) (recipients : Nat) (moved : Amount)
    (time : Moment) : (d.asSettled event recipients moved time).isHolding = false := rfl

@[simp] theorem isHolding_asExpired (d : Drop) (time : Moment) :
    (d.asExpired time).isHolding = false := rfl

@[simp] theorem isHolding_asFailed (d : Drop) (reason : String) (participants : Option Int)
    (time : Moment) : (d.asFailed reason participants time).isHolding = false := rfl

end Drop
end TipJar
