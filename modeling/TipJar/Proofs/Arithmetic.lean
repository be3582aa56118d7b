import Mathlib.Tactic.IntervalCases
import TipJar.Ledger.Arithmetic

/-! Sums that outgrow a column.

A sum beyond 64 bits is rounded twice: its parts become floating-point numbers, and
their sum is rounded to one. Both can lose, but never so much that the result fits a
column again. In the top range of a column floating-point numbers are 1024 apart, so
each part loses at most 512; the one sum that is short by all of that is halfway
between two numbers, and a half goes up there, to the even one. -/
namespace TipJar

/-- A quotient that ends up half a unit below goes to an even number. -/
theorem even_roundQuotient_of_half {num den : Nat} (pos : 0 < den)
    (half : 2 * num = 2 * (roundQuotient num den * den) + den) : roundQuotient num den % 2 = 0 := by
  have hdivision := Nat.div_add_mod num den
  have hrest := Nat.mod_lt num pos
  have hfloor : num / den * den = den * (num / den) := Nat.mul_comm _ _
  have hnext : (num / den + 1) * den = den * (num / den) + den := by
    rw [Nat.add_mul, hfloor, Nat.one_mul]
  simp only [roundQuotient] at half ⊢
  rcases Nat.lt_trichotomy (2 * (num % den)) den with below | tie | above
  · rw [if_pos below, hfloor] at half
    omega
  · have level : ¬2 * (num % den) < den ∧ ¬den < 2 * (num % den) := by omega
    rw [if_neg level.1, if_neg level.2] at half ⊢
    by_cases even : num / den % 2 = 0
    · rw [if_pos even]
      exact even
    · rw [if_neg even]
      omega
  · rw [if_neg (Nat.lt_asymm above), if_pos above, hnext] at half
    omega

/-- What is cut off by rounding down is all that a quotient can lose. -/
theorem div_le_roundQuotient (num den : Nat) : num / den ≤ roundQuotient num den := by
  unfold roundQuotient
  dsimp only
  split
  · exact Nat.le_refl _
  · split
    · exact Nat.le_succ _
    · split
      · exact Nat.le_refl _
      · exact Nat.le_succ _

namespace Ledger

/-- Beyond a column a count has at least 52 bits in front of the last one that is kept. -/
theorem le_nearestFloat {n : Nat} (h : 2 ^ 63 ≤ n) : 2 ^ 63 ≤ nearestFloat n := by
  have hlog : 63 ≤ Nat.log2 n := (Nat.le_log2 (by omega)).mpr h
  have hself : 2 ^ Nat.log2 n ≤ n := Nat.log2_self_le (by omega)
  have hunits : 2 ^ 52 * 2 ^ (Nat.log2 n + 1 - 53) = 2 ^ Nat.log2 n := by
    rw [← Nat.pow_add]
    congr 1
    omega
  have hfloor : 2 ^ 52 ≤ n / 2 ^ (Nat.log2 n + 1 - 53) := by
    rw [Nat.le_div_iff_mul_le (Nat.two_pow_pos _), hunits]
    exact hself
  have hrounded : 2 ^ 52 ≤ roundQuotient n (2 ^ (Nat.log2 n + 1 - 53)) :=
    Nat.le_trans hfloor (div_le_roundQuotient _ _)
  calc 2 ^ 63 ≤ 2 ^ Nat.log2 n := Nat.pow_le_pow_right (by decide) hlog
    _ = 2 ^ 52 * 2 ^ (Nat.log2 n + 1 - 53) := hunits.symm
    _ ≤ nearestFloat n := Nat.mul_le_mul_right _ hrounded

/-- Half a step below the end of a column is already rounded out of it. -/
theorem le_nearestFloat_of_half {n : Nat} (h : 2 ^ 63 - 512 ≤ n) : 2 ^ 63 ≤ nearestFloat n := by
  by_cases hbeyond : 2 ^ 63 ≤ n
  · exact le_nearestFloat hbeyond
  · have hlog : Nat.log2 n = 62 := (Nat.log2_eq_iff (by omega)).mpr ⟨by omega, by omega⟩
    have hfloor : n / 1024 = 2 ^ 53 - 1 := by omega
    have hrest : 512 ≤ n % 1024 := by omega
    have hrounded : roundQuotient n 1024 = 2 ^ 53 := by
      unfold roundQuotient
      rw [hfloor]
      dsimp only
      split
      · omega
      · split
        · rfl
        · rfl
    unfold nearestFloat
    rw [hlog]
    show 2 ^ 63 ≤ roundQuotient n 1024 * 1024
    omega

/-- In a column floating-point numbers are at most 1024 apart. -/
theorem nearestFloat_within {n : Nat} (h : n < 2 ^ 63) : ∃ k q, k ≤ 10 ∧
    nearestFloat n = q * 2 ^ k ∧ 2 * n ≤ 2 * (q * 2 ^ k) + 2 ^ k ∧
      (2 * n = 2 * (q * 2 ^ k) + 2 ^ k → q % 2 = 0) := by
  have hlog : Nat.log2 n < 63 := by
    by_cases hzero : n = 0
    · subst hzero
      decide
    · exact (Nat.log2_lt hzero).mpr h
  have hunit := Nat.two_pow_pos (Nat.log2 n + 1 - 53)
  exact ⟨Nat.log2 n + 1 - 53, _, by omega, rfl, (roundQuotient_near n _ hunit).2,
    even_roundQuotient_of_half hunit⟩

/-- The coarser part is at the top of a column, the finer one anywhere below. -/
theorem half_le_of_finer {a b q r k : Nat} (finer : k ≤ 9) (h : 2 ^ 63 ≤ a + b)
    (ha : 2 * a ≤ 2 * (q * 2 ^ 10) + 2 ^ 10) (hb : 2 * b ≤ 2 * (r * 2 ^ k) + 2 ^ k) :
    2 ^ 63 - 512 ≤ q * 2 ^ 10 + r * 2 ^ k := by
  interval_cases k <;> omega

/-- The rounded parts of a sum beyond a column are at most half a step short of it. -/
theorem half_le_nearestFloat_add {a b : Nat} (h : 2 ^ 63 ≤ a + b) :
    2 ^ 63 - 512 ≤ nearestFloat a + nearestFloat b := by
  by_cases hlarge : 2 ^ 63 ≤ a
  · have := le_nearestFloat hlarge
    omega
  by_cases hother : 2 ^ 63 ≤ b
  · have := le_nearestFloat hother
    omega
  obtain ⟨k, q, hk, hq, ha, hhalf⟩ := nearestFloat_within (Nat.lt_of_not_le hlarge)
  obtain ⟨l, r, hl, hr, hb, hothers⟩ := nearestFloat_within (Nat.lt_of_not_le hother)
  rw [hq, hr]
  rcases Nat.lt_or_eq_of_le hk with hk | rfl <;> rcases Nat.lt_or_eq_of_le hl with hl | rfl
  · have hfine : 2 ^ k ≤ 2 ^ 9 := Nat.pow_le_pow_right (by decide) (Nat.le_of_lt_succ hk)
    have hother : 2 ^ l ≤ 2 ^ 9 := Nat.pow_le_pow_right (by decide) (Nat.le_of_lt_succ hl)
    omega
  · rw [Nat.add_comm]
    exact half_le_of_finer (Nat.le_of_lt_succ hk) (Nat.add_comm a b ▸ h) hb ha
  · exact half_le_of_finer (Nat.le_of_lt_succ hl) h ha hb
  · omega

/-- A sum fits a column exactly if the exact sum does. -/
theorem columnSum_fits {a b : Nat} : columnSum a b ≤ columnMax ↔ (a + b : Nat) ≤ columnMax := by
  refine ⟨fun h => ?_, fun h => (columnSum_of_fits h).symm ▸ h⟩
  by_contra beyond
  have hmax : columnMax = 2 ^ 63 - 1 := rfl
  have hexact : 2 ^ 63 ≤ a + b := by omega
  have hrounded := le_nearestFloat_of_half (half_le_nearestFloat_add hexact)
  rw [columnSum, if_neg beyond, hmax] at h
  omega

-- One unit is lost when two are added to a full column.
example : columnSum 0x7fffffffffffffff 2 = 0x8000000000000000 := by decide +kernel

end Ledger
end TipJar
