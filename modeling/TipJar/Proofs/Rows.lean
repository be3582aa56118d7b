import Mathlib.Algebra.Order.BigOperators.Group.List
import Mathlib.Algebra.Order.Ring.Nat
import Mathlib.Data.List.Nodup

/-! Rows with keys.

Accounts are kept by name and drops by identifier: both are lists of rows that are
looked up by a key and changed in place. What holds of such lists is said once
here, for any key: what is found after a change, that keys stay different, and how
a sum over all rows moves when one row does. -/
namespace TipJar.Ledger.Rows

variable {α κ : Type} [DecidableEq κ] (key : α → κ)

/-- The row of a key. -/
def find? (rows : List α) (k : κ) : Option α := rows.find? (key · == k)

/-- The rows with the row of a key changed. -/
def update (rows : List α) (k : κ) (f : α → α) : List α :=
  rows.map fun a => if key a == k then f a else a

variable {rows : List α} {k j : κ} {f : α → α} {a b : α}

theorem find?_cons (a : α) (rows : List α) (k : κ) :
    find? key (a :: rows) k = if key a = k then some a else find? key rows k := by
  unfold find?
  by_cases h : key a = k
  · rw [List.find?_cons_of_pos (by simp [h]), if_pos h]
  · rw [List.find?_cons_of_neg (by simp [h]), if_neg h]

/-- Only a row of the key is found. -/
theorem key_of_find? (h : find? key rows k = some a) : key a = k := by
  have := List.find?_some h
  simpa using this

theorem mem_of_find? (h : find? key rows k = some a) : a ∈ rows := List.mem_of_find?_eq_some h

theorem find?_eq_none : find? key rows k = none ↔ ∀ a ∈ rows, key a ≠ k := by
  simp [find?, List.find?_eq_none]

theorem find?_append (rows more : List α) (k : κ) :
    find? key (rows ++ more) k = (find? key rows k).or (find? key more k) := List.find?_append

/-- With different keys, a row is what its key finds. -/
theorem find?_of_mem (hn : (rows.map key).Nodup) (h : a ∈ rows) :
    find? key rows (key a) = some a := by
  cases hf : find? key rows (key a) with
  | none => exact absurd rfl ((find?_eq_none key).mp hf a h)
  | some b => rw [List.inj_on_of_nodup_map hn (mem_of_find? key hf) h (key_of_find? key hf)]

omit [DecidableEq κ] in
/-- With different keys, rows of one key are one row. -/
theorem eq_of_key (hn : (rows.map key).Nodup) (ha : a ∈ rows) (hb : b ∈ rows) (h : key a = key b) :
    a = b := List.inj_on_of_nodup_map hn ha hb h

/-! ### A row changed -/

theorem update_cons (a : α) (rows : List α) (k : κ) (f : α → α) :
    update key (a :: rows) k f = (if key a = k then f a else a) :: update key rows k f := by
  simp [update]

theorem map_key_update (hf : ∀ a, key (f a) = key a) :
    (update key rows k f).map key = rows.map key := by
  unfold update
  rw [List.map_map]
  apply List.map_congr_left
  intro a _
  by_cases h : key a = k <;> simp [h, hf]

theorem find?_update (hf : ∀ a, key (f a) = key a) :
    find? key (update key rows k f) j =
      if j = k then (find? key rows k).map f else find? key rows j := by
  induction rows with
  | nil => simp [find?, update]
  | cons a rows ih =>
    rw [update_cons, find?_cons, ih]
    by_cases ha : key a = k
    · rw [if_pos ha, hf, ha, find?_cons, if_pos ha, find?_cons]
      by_cases hj : j = k
      · rw [if_pos hj.symm, if_pos hj, Option.map_some]
      · rw [if_neg (Ne.symm hj), if_neg hj, if_neg hj, ha, if_neg (Ne.symm hj)]
    · rw [if_neg ha, find?_cons, if_neg ha, find?_cons]
      by_cases hj : j = k
      · rw [if_pos hj, if_pos hj, if_neg (fun h => ha (h.trans hj))]
      · rw [if_neg hj, if_neg hj]

/-- Rows of other keys stay. -/
theorem mem_update_of_ne (h : a ∈ rows) (hk : key a ≠ k) : a ∈ update key rows k f :=
  List.mem_map.mpr ⟨a, h, by simp [hk]⟩

theorem mem_update (hn : (rows.map key).Nodup) (ha : a ∈ rows) (hk : key a = k) :
    b ∈ update key rows k f ↔ b = f a ∨ (b ∈ rows ∧ key b ≠ k) := by
  unfold update
  rw [List.mem_map]
  constructor
  · intro h
    obtain ⟨c, hc, rfl⟩ := h
    by_cases hck : key c = k
    · left
      rw [eq_of_key key hn hc ha (hck.trans hk.symm)]
      simp [hk]
    · right
      simpa [hck] using hc
  · intro h
    rcases h with rfl | ⟨hb, hbk⟩
    · exact ⟨a, ha, by simp [hk]⟩
    · exact ⟨b, hb, by simp [hbk]⟩

/-! ### Sums -/

/-- A change that keeps a measure of every row of the key keeps the sum of the measures. -/
theorem sum_update_of_eq (g : α → Nat) (h : ∀ a ∈ rows, key a = k → g (f a) = g a) :
    ((update key rows k f).map g).sum = (rows.map g).sum := by
  unfold update
  rw [List.map_map]
  congr 1
  apply List.map_congr_left
  intro a ha
  by_cases hk : key a = k
  · simp [hk, h a ha hk]
  · simp [hk]

/-- With different keys, a sum moves by what the one row of the key moves by. -/
theorem sum_update (g : α → Nat) (hn : (rows.map key).Nodup) (ha : a ∈ rows) (hk : key a = k) :
    ((update key rows k f).map g).sum + g a = (rows.map g).sum + g (f a) := by
  induction rows with
  | nil => cases ha
  | cons b rows ih =>
    rw [List.map_cons, List.nodup_cons] at hn
    rw [update_cons, List.map_cons, List.map_cons, List.sum_cons, List.sum_cons]
    rcases List.mem_cons.mp ha with rfl | ha
    · have hrest : ((update key rows k f).map g).sum = (rows.map g).sum := by
        apply sum_update_of_eq key
        intro c hc hck
        exact absurd (List.mem_map.mpr ⟨c, hc, hck.trans hk.symm⟩) hn.1
      rw [if_pos hk, hrest]
      omega
    · have hb : key b ≠ k := fun h =>
        hn.1 (List.mem_map.mpr ⟨a, ha, hk.trans h.symm⟩)
      have := ih hn.2 ha
      rw [if_neg hb]
      omega

theorem sum_filter (p : α → Bool) (g : α → Nat) :
    ((rows.filter p).map g).sum = (rows.map fun a => if p a then g a else 0).sum := by
  induction rows with
  | nil => rfl
  | cons a rows ih =>
    cases hp : p a with
    | true => simp [hp, ih]
    | false => simp [hp, ih]

end TipJar.Ledger.Rows
