import TipJar.Proofs.Holds

/-! What waits for a sweep.

The drops that are due stand in one order: by their deadlines, and where these are
the same by their identifiers. A batch is the front of that queue, and no drop is in
it twice. -/
namespace TipJar

theorem Uuid.eq_of_value {a b : Uuid} (h : a.value = b.value) : a = b := by
  cases a
  cases b
  cases h
  rfl

namespace Ledger.Store

section Orders
variable {α : Type} {order : α → α → Ordering}

/-- What stands before in an order by two keys is less by the first, or by the second if the first
is the same. -/
theorem isLE_compare_then {β : Type} [LinearOrder β] {x y : β} {o : Ordering} :
    ((compare x y).then o).isLE = true ↔ x < y ∨ x = y ∧ o.isLE = true := by
  rcases lt_trichotomy x y with hlt | rfl | hgt
  · simp [compare_lt_iff_lt.mpr hlt, hlt]
  · simp
  · simp [compare_gt_iff_gt.mpr hgt, hgt.not_gt, hgt.ne']

theorem perm_sortedBy (order : α → α → Ordering) (rows : List α) :
    (sortedBy order rows).Perm rows := List.mergeSort_perm rows _

/-- Sorted rows are in order, if the order is one. -/
theorem pairwise_sortedBy [Std.TransCmp order] (rows : List α) :
    (sortedBy order rows).Pairwise fun a b => (order a b).isLE = true := by
  refine List.pairwise_mergeSort (fun a b c => Std.TransCmp.isLE_trans) (fun a b => ?_) rows
  rw [Bool.or_eq_true]
  cases h : order a b with
  | lt => exact .inl rfl
  | eq => exact .inl rfl
  | gt =>
    refine .inr (Std.OrientedCmp.isLE_of_isGE ?_)
    rw [h]
    rfl

theorem limited_sublist (limit : Option Int) (rows : List α) :
    (limited limit rows).Sublist rows := by
  unfold limited
  split
  · split
    · exact List.Sublist.refl _
    · exact List.take_sublist _ _
  · exact List.Sublist.refl _

theorem limited_natCast (k : Nat) (rows : List α) :
    limited (some (k : Int)) rows = rows.take k := by
  show (if (k : Int) < 0 then rows else rows.take k) = _
  rw [if_neg (by omega)]

instance transCmp_dropOrder (moment : Drop → Int) : Std.TransCmp (dropOrder moment) :=
  inferInstanceAs (Std.TransCmp
    (compareLex (compareOn moment) (compareOn fun d : Drop => d.id.value)))

end Orders

variable {s : Store} {asOf : Moment} {limit : Option Int} {d : Drop}

/-- What is in a batch is there, and due. -/
theorem of_mem_due (h : d ∈ s.due asOf limit) : d ∈ s.drops ∧ d.isDue asOf = true :=
  List.mem_filter.mp ((perm_sortedBy _ _).mem_iff.mp ((limited_sublist _ _).mem h))

/-- A batch is in the order of deadlines and identifiers. -/
theorem pairwise_due (s : Store) (asOf : Moment) (limit : Option Int) :
    (s.due asOf limit).Pairwise fun a b => (dropOrder (·.deadline.instant) a b).isLE = true :=
  (pairwise_sortedBy _).sublist (limited_sublist _ _)

/-- No drop is in a list of them twice, in whatever order they are. -/
theorem nodup_sortedBy_filter (h : s.IdsDiffer) (order : Drop → Drop → Ordering)
    (p : Drop → Bool) : ((sortedBy order (s.drops.filter p)).map (·.id)).Nodup :=
  ((perm_sortedBy order _).map Drop.id).nodup_iff.mpr (h.sublist (List.filter_sublist.map _))

/-- No drop is in a batch twice. -/
theorem nodup_due (h : s.IdsDiffer) (asOf : Moment) (limit : Option Int) :
    ((s.due asOf limit).map (·.id)).Nodup :=
  (nodup_sortedBy_filter h _ _).sublist ((limited_sublist _ _).map _)

end Ledger.Store
end TipJar
