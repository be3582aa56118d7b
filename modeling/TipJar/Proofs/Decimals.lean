import Mathlib.Algebra.Order.Field.Power
import Mathlib.Data.Rat.Cast.Order
import Mathlib.Tactic.FieldSimp
import Mathlib.Tactic.Linarith
import Mathlib.Tactic.NormNum
import Mathlib.Tactic.Positivity
import Mathlib.Tactic.Ring
import TipJar.Decimal.Arithmetic
import TipJar.Proofs.Digits

/-! What bounded decimals compute.

A decimal stands for a rational number, and an operation computes the number that
it should and then lets go of the digits that do not fit. What is let go of is at
most half a unit of the last digit that is kept, so a result is near the number
that was computed; and it is that number if it has few enough digits. Which digits
the operands were written with plays no part in either. -/
namespace TipJar.Decimal

/-! ### Values -/

/-- The number that digits and an exponent stand for. -/
def scaled (coefficient : Nat) (exponent : Int) : ℚ := coefficient * 10 ^ exponent

/-- A number with a sign. -/
def signed (negative : Bool) (size : ℚ) : ℚ := if negative then -size else size

/-- The number that a decimal stands for, unless it is a special value. -/
def value? : Decimal → Option ℚ
  | finite negative coefficient exponent => some (signed negative (scaled coefficient exponent))
  | _ => none

theorem abs_signed (negative : Bool) (size : ℚ) : |signed negative size| = |size| := by
  cases negative
  · rfl
  · exact abs_neg size

theorem signed_mul (negative : Bool) (size factor : ℚ) :
    signed negative (size * factor) = signed negative size * factor := by
  cases negative with
  | false => simp only [signed, Bool.false_eq_true, if_false]
  | true => simp only [signed, if_true, neg_mul]

theorem scaled_nonneg (c : Nat) (e : Int) : 0 ≤ scaled c e := by
  unfold scaled
  positivity

theorem scaled_zero (e : Int) : scaled 0 e = 0 := by simp [scaled]

theorem scaled_mul (c n : Nat) (e : Int) : scaled (c * n) e = scaled c e * n := by
  unfold scaled
  push_cast
  ring

theorem scaled_add (c n : Nat) (e : Int) : scaled c (e + n) = scaled (c * 10 ^ n) e := by
  unfold scaled
  rw [zpow_add₀ (by norm_num), zpow_natCast]
  push_cast
  ring

/-- The same number with its last digit further to the right. -/
theorem scaled_of_le {c : Nat} {e k : Int} (h : e ≤ k) :
    scaled c k = scaled (c * 10 ^ (k - e).toNat) e := by
  rw [← scaled_add, Int.toNat_of_nonneg (by omega), add_sub_cancel]

theorem scaled_inj {c d : Nat} {e : Int} (h : scaled c e = scaled d e) : c = d := by
  have hpos : (10 : ℚ) ^ e ≠ 0 := by positivity
  exact_mod_cast mul_right_cancel₀ hpos h

theorem pow_adjusted_le {c : Nat} (hc : c ≠ 0) (e : Int) :
    (10 : ℚ) ^ adjusted c e ≤ scaled c e := by
  have hdigits : 10 ^ (Text.digitCount c - 1) ≤ c :=
    Text.pow_le_of_lt_digitCount (Nat.sub_lt (Text.digitCount_pos c) (by decide)) hc
  have hcast : (10 : ℚ) ^ (Text.digitCount c - 1) ≤ c := by exact_mod_cast hdigits
  unfold adjusted scaled
  rw [zpow_add₀ (by norm_num), zpow_natCast, mul_comm]
  gcongr

theorem lt_pow_adjusted (c : Nat) (e : Int) : scaled c e < (10 : ℚ) ^ (adjusted c e + 1) := by
  have hdigits : (c : ℚ) < 10 ^ Text.digitCount c := by exact_mod_cast Text.lt_pow_digitCount c
  have hpos := Text.digitCount_pos c
  have hexponent : adjusted c e + 1 = (Text.digitCount c : Int) + e := by
    unfold adjusted
    omega
  unfold scaled
  rw [hexponent, zpow_add₀ (by norm_num), zpow_natCast]
  gcongr

theorem adjusted_le_iff {c : Nat} (hc : c ≠ 0) {e k : Int} :
    adjusted c e ≤ k ↔ scaled c e < 10 ^ (k + 1) := by
  constructor
  · intro h
    exact (lt_pow_adjusted c e).trans_le (zpow_le_zpow_right₀ (by norm_num) (by omega))
  · intro h
    have := (zpow_lt_zpow_iff_right₀ (by norm_num)).mp ((pow_adjusted_le hc e).trans_lt h)
    omega

/-! ### Dropping digits -/

theorem dropDigits_zero (c : Nat) : dropDigits c 0 = c := by
  unfold dropDigits
  rw [if_neg (Nat.not_lt_zero _)]
  simpa using roundQuotient_mul c 1 (by decide)

/-- Digits that are all zeros can be dropped without a loss. -/
theorem dropDigits_mul (m places : Nat) : dropDigits (m * 10 ^ places) places = m := by
  unfold dropDigits
  split
  · next h =>
    by_contra hm
    rw [Text.digitCount_mul_pow (Ne.symm hm)] at h
    omega
  · exact roundQuotient_mul m _ (Nat.pow_pos (by decide))

/-- What is dropped is half a unit of the last digit kept at most. -/
theorem dropDigits_near (c places : Nat) :
    2 * |(dropDigits c places : ℚ) * 10 ^ places - c| ≤ 10 ^ places := by
  have hnat : 2 * (dropDigits c places * 10 ^ places) ≤ 2 * c + 10 ^ places ∧
      2 * c ≤ 2 * (dropDigits c places * 10 ^ places) + 10 ^ places := by
    unfold dropDigits
    split
    · next h =>
      have hsmall : c < 10 ^ (places - 1) :=
        (Text.lt_pow_digitCount c).trans_le (Nat.pow_le_pow_right (by decide) (by omega))
      have hpow : 10 ^ places = 10 * 10 ^ (places - 1) := by
        rw [← Nat.pow_succ', Nat.succ_eq_add_one, Nat.sub_add_cancel (by omega)]
      omega
    · exact roundQuotient_near c _ (Nat.pow_pos (by decide))
  have hlow : (2 : ℚ) * (dropDigits c places * 10 ^ places) ≤ 2 * c + 10 ^ places := by
    exact_mod_cast hnat.1
  have hhigh : (2 : ℚ) * c ≤ 2 * (dropDigits c places * 10 ^ places) + 10 ^ places := by
    exact_mod_cast hnat.2
  have habs : |(dropDigits c places : ℚ) * 10 ^ places - c| ≤ 10 ^ places / 2 :=
    abs_le.mpr ⟨by linarith, by linarith⟩
  linarith

/-! ### Results -/

/-- Whether a number has few enough digits to be kept as it is. -/
def Bounds.Holds (b : Bounds) (v : ℚ) : Prop :=
  ∃ m k, m < 10 ^ b.precision ∧ b.lastPlace ≤ k ∧ |v| = scaled m k

/-- Whether a number is no more than half a unit of the last digit kept away from another. -/
def Bounds.Near (b : Bounds) (v r : ℚ) : Prop :=
  2 * |r - v| ≤ |v| / 10 ^ (b.precision - 1) + 10 ^ b.lastPlace

theorem Bounds.near_self (b : Bounds) (v : ℚ) : b.Near v v := by
  unfold Near
  rw [sub_self, abs_zero, mul_zero]
  positivity

theorem Bounds.near_signed {b : Bounds} {v r : ℚ} (h : b.Near v r) (negative : Bool) :
    b.Near (signed negative v) (signed negative r) := by
  unfold Near at h ⊢
  cases negative with
  | false => exact h
  | true =>
    show 2 * |-r - -v| ≤ |-v| / 10 ^ (b.precision - 1) + 10 ^ b.lastPlace
    rw [abs_neg, show -r - -v = -(r - v) by ring, abs_neg]
    exact h

theorem Bounds.holds_signed {b : Bounds} {v : ℚ} {negative : Bool} :
    b.Holds (signed negative v) ↔ b.Holds v := by
  unfold Holds
  rw [abs_signed]

/-- The place of the last digit that is kept of a number. -/
def Bounds.keptPlace (b : Bounds) (coefficient : Nat) (exponent : Int) : Int :=
  max exponent (max (adjusted coefficient exponent - (b.precision - 1 : Nat)) b.lastPlace)

/-- A number rounded to the digits that are kept. -/
def Bounds.rounded (b : Bounds) (coefficient : Nat) (exponent : Int) : ℚ :=
  scaled (dropDigits coefficient (b.keptPlace coefficient exponent - exponent).toNat)
    (b.keptPlace coefficient exponent)

theorem Bounds.rounded_zero (b : Bounds) (e : Int) : b.rounded 0 e = 0 := by
  have hnothing : dropDigits 0 (b.keptPlace 0 e - e).toNat = 0 := by
    simpa using dropDigits_mul 0 (b.keptPlace 0 e - e).toNat
  unfold Bounds.rounded
  rw [hnothing, scaled_zero]

theorem Bounds.rounded_nonneg (b : Bounds) (c : Nat) (e : Int) : 0 ≤ b.rounded c e :=
  scaled_nonneg _ _

section Results
variable {b : Bounds} {c : Nat} {e : Int}

theorem Bounds.le_keptPlace : e ≤ b.keptPlace c e := le_max_left _ _

theorem Bounds.rounded_of_keptPlace (h : b.keptPlace c e = e) : b.rounded c e = scaled c e := by
  unfold Bounds.rounded
  rw [h, sub_self, Int.toNat_zero, dropDigits_zero]

/-- Rounding moves a number by no more than half a unit of the last digit that is kept. -/
theorem Bounds.rounded_near_unit :
    2 * |b.rounded c e - scaled c e| ≤ (10 : ℚ) ^ b.keptPlace c e := by
  have hplace := Bounds.le_keptPlace (b := b) (c := c) (e := e)
  have hscale : (10 : ℚ) ^ b.keptPlace c e = 10 ^ (b.keptPlace c e - e).toNat * 10 ^ e := by
    rw [← zpow_natCast, ← zpow_add₀ (by norm_num)]
    congr 1
    omega
  have hdifference : b.rounded c e - scaled c e =
      ((dropDigits c (b.keptPlace c e - e).toNat : ℚ) * 10 ^ (b.keptPlace c e - e).toNat - c) *
        10 ^ e := by
    unfold Bounds.rounded scaled
    rw [hscale]
    ring
  have hnear := dropDigits_near c (b.keptPlace c e - e).toNat
  have hpos : (0 : ℚ) < 10 ^ e := by positivity
  rw [hdifference, abs_mul, abs_of_pos hpos, hscale, ← mul_assoc]
  gcongr

/-- The unit of the last digit kept, by which of the bounds it is that cuts digits off. -/
theorem Bounds.unit_le (hc : c ≠ 0) (hsome : e < b.keptPlace c e) :
    (10 : ℚ) ^ b.keptPlace c e ≤ |scaled c e| / 10 ^ (b.precision - 1) + 10 ^ b.lastPlace := by
  have hsize := pow_adjusted_le hc e
  rw [abs_of_nonneg (scaled_nonneg c e)]
  rcases max_choice (adjusted c e - (b.precision - 1 : Nat)) b.lastPlace with h | h
  · have hkept : b.keptPlace c e = adjusted c e - (b.precision - 1 : Nat) := by
      unfold Bounds.keptPlace at hsome ⊢
      omega
    rw [hkept, zpow_sub₀ (by norm_num), zpow_natCast]
    have hdigit : (10 : ℚ) ^ adjusted c e / 10 ^ (b.precision - 1) ≤
        scaled c e / 10 ^ (b.precision - 1) := by gcongr
    have hlast : (0 : ℚ) ≤ 10 ^ b.lastPlace := by positivity
    linarith
  · have hkept : b.keptPlace c e = b.lastPlace := by
      unfold Bounds.keptPlace at hsome ⊢
      omega
    have hvalue := scaled_nonneg c e
    have hdigit : 0 ≤ scaled c e / 10 ^ (b.precision - 1) := by positivity
    rw [hkept]
    linarith

theorem Bounds.rounded_near : b.Near (scaled c e) (b.rounded c e) := by
  by_cases hc : c = 0
  · rw [hc, b.rounded_zero, scaled_zero]
    exact b.near_self 0
  rcases eq_or_lt_of_le (Bounds.le_keptPlace (b := b) (c := c) (e := e)) with hall | hsome
  · rw [Bounds.rounded_of_keptPlace hall.symm]
    exact b.near_self _
  · exact Bounds.rounded_near_unit.trans (Bounds.unit_le hc hsome)

/-- A number that has few enough digits keeps them all. -/
theorem Bounds.rounded_of_holds (hb : 0 < b.precision) (h : b.Holds (scaled c e)) :
    b.rounded c e = scaled c e := by
  by_cases hc : c = 0
  · rw [hc, b.rounded_zero, scaled_zero]
  obtain ⟨m, k, hm, hk, hv⟩ := h
  rw [abs_of_nonneg (scaled_nonneg c e)] at hv
  have hm0 : m ≠ 0 := by
    rintro rfl
    have hpos := (show (0 : ℚ) < 10 ^ adjusted c e by positivity).trans_le (pow_adjusted_le hc e)
    rw [hv, scaled_zero] at hpos
    exact lt_irrefl _ hpos
  have hfirst : adjusted c e - (b.precision - 1 : Nat) ≤ k := by
    have hsmall : scaled c e < 10 ^ (k + (b.precision - 1 : Nat) + 1) := by
      have hm' : (m : ℚ) < 10 ^ b.precision := by exact_mod_cast hm
      have hexponent : k + ((b.precision - 1 : Nat) : Int) + 1 = (b.precision : Int) + k := by omega
      rw [hv, hexponent, zpow_add₀ (by norm_num), zpow_natCast]
      unfold scaled
      gcongr
    have := (adjusted_le_iff hc).mpr hsmall
    omega
  rcases eq_or_lt_of_le (Bounds.le_keptPlace (b := b) (c := c) (e := e)) with hall | hsome
  · exact Bounds.rounded_of_keptPlace hall.symm
  · have hkept : b.keptPlace c e ≤ k := by
      unfold Bounds.keptPlace at hsome ⊢
      omega
    unfold Bounds.rounded
    generalize b.keptPlace c e = place at hsome hkept
    have hzeros : c = m * 10 ^ (k - place).toNat * 10 ^ (place - e).toNat := by
      have hsplit : (k - e).toNat = (k - place).toNat + (place - e).toNat := by omega
      rw [scaled_of_le (c := m) (hsome.le.trans hkept), hsplit, pow_add, ← mul_assoc] at hv
      exact scaled_inj hv
    rw [hzeros, dropDigits_mul, ← scaled_of_le hsome.le]

end Results

/-- What a bounded operation gives, but for zero. A number that is rounded up to one more digit
loses its last zero. -/
theorem bounded_eq {b : Bounds} (hb : 0 < b.precision) (negative : Bool) {c : Nat} (hc : c ≠ 0)
    (e : Int) : ∃ kept last, scaled kept last = b.rounded c e ∧ bounded b negative c e =
      if kept ≠ 0 ∧ b.maxExponent < adjusted kept last then .error .overflow
      else .ok (finite negative kept last) := by
  unfold bounded
  rw [if_neg hc]
  refine ⟨_, _, ?_, rfl⟩
  unfold Bounds.rounded Bounds.keptPlace
  generalize max e (max (adjusted c e - (b.precision - 1 : Nat)) b.lastPlace) = place
  generalize dropDigits c (place - e).toNat = full
  by_cases hfull : full = Nat.pow 10 b.precision
  · have hten : full / 10 * 10 ^ 1 = full := by
      rw [hfull, pow_one]
      exact Nat.div_mul_cancel (dvd_pow_self 10 hb.ne')
    rw [if_pos (beq_iff_eq.mpr hfull), if_pos (beq_iff_eq.mpr hfull), ← Nat.cast_one,
      scaled_add _ 1, hten]
  · rw [if_neg (mt beq_iff_eq.mp hfull), if_neg (mt beq_iff_eq.mp hfull)]

/-- What a bounded operation gives: the rounded number, if its first digit is not too far up. -/
theorem bounded_gives {b : Bounds} (hb : 0 < b.precision) (negative : Bool) (c : Nat) (e : Int) :
    (∃ kept last, bounded b negative c e = .ok (finite negative kept last) ∧
        scaled kept last = b.rounded c e ∧ b.rounded c e < 10 ^ (b.maxExponent + 1)) ∨
      (bounded b negative c e = .error .overflow ∧ 10 ^ (b.maxExponent + 1) ≤ b.rounded c e) := by
  by_cases hc : c = 0
  · left
    refine ⟨0, max b.lastPlace (min e b.maxExponent), if_pos hc, ?_, ?_⟩
    · rw [hc, b.rounded_zero, scaled_zero]
    · rw [hc, b.rounded_zero]
      positivity
  obtain ⟨kept, last, hvalue, heq⟩ := bounded_eq hb negative hc e
  rw [heq, ← hvalue]
  by_cases hkept : kept = 0
  · left
    refine ⟨kept, last, if_neg fun h => h.1 hkept, rfl, ?_⟩
    rw [hkept, scaled_zero]
    positivity
  · by_cases hlarge : b.maxExponent < adjusted kept last
    · right
      refine ⟨if_pos ⟨hkept, hlarge⟩, ?_⟩
      by_contra hsmall
      exact absurd ((adjusted_le_iff hkept).mpr (not_le.mp hsmall)) (not_le.mpr hlarge)
    · left
      exact ⟨kept, last, if_neg fun h => hlarge h.2, rfl,
        (adjusted_le_iff hkept).mp (not_lt.mp hlarge)⟩

/-- A number that has few enough digits and is not too large is kept. -/
theorem bounded_of_holds {b : Bounds} (hb : 0 < b.precision) (negative : Bool) {c : Nat} {e : Int}
    (hholds : b.Holds (scaled c e)) (hsmall : scaled c e < 10 ^ (b.maxExponent + 1)) :
    ∃ kept last, bounded b negative c e = .ok (finite negative kept last) ∧
      scaled kept last = scaled c e := by
  have hsame := Bounds.rounded_of_holds hb hholds
  obtain ⟨kept, last, hok, hvalue, -⟩ | ⟨-, hlarge⟩ := bounded_gives hb negative c e
  · exact ⟨kept, last, hok, hvalue.trans hsame⟩
  · exact absurd hsmall (not_lt.mpr (hsame ▸ hlarge))

/-! ### Whole numbers -/

theorem scaled_natural {c : Nat} {e : Int} (he : 0 ≤ e) :
    scaled c e = (c * 10 ^ e.toNat : Nat) := by
  rw [scaled_of_le he, sub_zero]
  simp [scaled]

theorem scaled_eq_natural_iff {c n : Nat} {e : Int} (he : e ≤ 0) :
    scaled c e = n ↔ c = n * 10 ^ e.natAbs := by
  have hn : (n : ℚ) = scaled (n * 10 ^ e.natAbs) e := by
    rw [show e.natAbs = (0 - e).toNat by omega, ← scaled_of_le he]
    simp [scaled]
  rw [hn]
  exact ⟨scaled_inj, fun h => h ▸ rfl⟩

/-- Only zero leaves a multiple with so few digits. -/
theorem eq_zero_of_short {c n places : Nat} (hshort : Text.digitCount c ≤ places)
    (h : c = n * 10 ^ places) : n = 0 := by
  have hsmall : c < 10 ^ places :=
    (Text.lt_pow_digitCount c).trans_le (Nat.pow_le_pow_right (by decide) hshort)
  by_contra hn
  exact absurd hsmall (not_lt.mpr (h ▸ Nat.le_mul_of_pos_left _ (Nat.pos_of_ne_zero hn)))

/-- A decimal is seen to be whole exactly if its value is. -/
theorem isWhole_iff (negative : Bool) (c : Nat) (e : Int) :
    (finite negative c e).isWhole = true ↔ ∃ n : Nat, scaled c e = n := by
  simp only [isWhole]
  by_cases he : 0 ≤ e
  · rw [if_pos he]
    exact iff_of_true rfl ⟨_, scaled_natural he⟩
  · rw [if_neg he]
    simp only [scaled_eq_natural_iff (not_le.mp he).le]
    split
    · next hshort =>
      rw [beq_iff_eq]
      refine ⟨fun h => ⟨0, by omega⟩, fun ⟨n, hn⟩ => ?_⟩
      rw [hn, eq_zero_of_short hshort hn, zero_mul]
    · rw [beq_iff_eq]
      exact ⟨fun h => ⟨_, (Nat.div_mul_cancel (Nat.dvd_of_mod_eq_zero h)).symm⟩,
        fun ⟨n, hn⟩ => hn ▸ Nat.mul_mod_left _ _⟩

/-- Nothing is cut off a whole number. -/
theorem truncate_of_whole (negative : Bool) {c : Nat} {e : Int} {n : Nat} (h : scaled c e = n) :
    (finite negative c e).truncate = some (if negative then -(n : Int) else n) := by
  have hsize : (if 0 ≤ e then c * Nat.pow 10 e.toNat
      else if Text.digitCount c ≤ e.natAbs then 0 else c / Nat.pow 10 e.natAbs) = n := by
    split
    · next he =>
      rw [scaled_natural he] at h
      exact_mod_cast h
    · next he =>
      have hc := (scaled_eq_natural_iff (not_le.mp he).le).mp h
      split
      · next hshort => exact (eq_zero_of_short hshort hc).symm
      · rw [hc]
        exact Nat.mul_div_cancel _ (Nat.pow_pos (by decide))
  simp only [truncate, hsize]

/-! ### Division and rounding to a place -/

theorem takeZeros_mul (most n : Nat) :
    (takeZeros most n).1 * 10 ^ (takeZeros most n).2 = n := by
  induction most generalizing n with
  | zero => simp [takeZeros]
  | succ most ih =>
    unfold takeZeros
    split
    · next h =>
      rw [pow_succ, ← mul_assoc, ih]
      exact Nat.div_mul_cancel (Nat.dvd_of_mod_eq_zero h)
    · simp

/-- A power of ten divides a number that has few enough digits without a rest. -/
theorem quotient_pow {b : Bounds} (hb : 0 < b.precision) (negative : Bool) {c k : Nat} {e : Int}
    (hfit : c < 10 ^ b.precision) (hplace : b.lastPlace ≤ e - k)
    (hsmall : scaled c (e - k) < 10 ^ (b.maxExponent + 1)) :
    ∃ kept last, quotient b (finite negative c e) (10 ^ k) = .ok (finite negative kept last) ∧
      scaled kept last = scaled c (e - k) := by
  by_cases hc : c = 0
  · refine ⟨0, _, if_pos hc, ?_⟩
    rw [hc, scaled_zero, scaled_zero]
  have hdigits : Text.digitCount c ≤ b.precision := (Text.digitCount_le_iff hb).mpr hfit
  have hdivisor : Text.digitCount (10 ^ k) = 1 + k := by
    have := Text.digitCount_mul_pow one_ne_zero k
    rwa [one_mul] at this
  -- The dividend is extended by the digits of the divisor and at least one more.
  obtain ⟨more, hmore⟩ : ∃ more, Text.digitCount (10 ^ k) + b.precision + 1 =
      k + more + Text.digitCount c := ⟨b.precision + 2 - Text.digitCount c, by omega⟩
  have hshift : ((Text.digitCount (10 ^ k) + b.precision + 1 : Nat) : Int) -
      (Text.digitCount c : Nat) = (k + more : Nat) := by omega
  have hdividend : c * Nat.pow 10 (k + more) = c * 10 ^ more * 10 ^ k := by
    rw [Nat.pow_eq, pow_add, mul_assoc, mul_comm (10 ^ k)]
  have hten : 0 < 10 ^ k := Nat.pow_pos (by decide)
  have hstart : Nat.pow 10 (-((k + more : Nat) : Int)).toNat = 1 := by
    rw [Int.toNat_neg_natCast]
  simp only [quotient, if_neg hc, hshift, Int.toNat_natCast, hstart, mul_one, hdividend,
    Nat.mul_mod_left, Nat.mul_div_cancel _ hten, if_true]
  have hgone := takeZeros_mul (k + more) (c * 10 ^ more)
  generalize takeZeros (k + more) (c * 10 ^ more) = taken at hgone ⊢
  have hvalue : scaled taken.1 (e - (k + more : Nat) + taken.2) = scaled c (e - k) := by
    rw [scaled_add, hgone, ← scaled_add]
    congr 1
    push_cast
    ring
  rw [← hvalue] at hsmall ⊢
  refine bounded_of_holds hb negative ⟨c, e - k, hfit, hplace, ?_⟩ hsmall
  rw [abs_of_nonneg (scaled_nonneg _ _), hvalue]

/-- A number that has its last digit at a place already is not changed by rounding there. -/
theorem quantize_of_scaled {b : Bounds} (hb : 0 < b.precision) (negative : Bool) {c m : Nat}
    {e place : Int} (hvalue : scaled c e = scaled m place) (hfit : m < 10 ^ b.precision)
    (hplace : b.lastPlace ≤ place) (hmax : place ≤ b.maxExponent)
    (hsmall : scaled m place < 10 ^ (b.maxExponent + 1)) :
    quantize b (finite negative c e) place = .ok (finite negative m place) := by
  have hrange : ¬(place < b.lastPlace ∨ b.maxExponent < place) := by omega
  by_cases hc : c = 0
  · have hm : m = 0 := by
      rw [hc, scaled_zero, ← scaled_zero place] at hvalue
      exact (scaled_inj hvalue).symm
    simp only [quantize, if_neg hrange, if_pos hc, hm]
  have hm : m ≠ 0 := by
    rintro rfl
    rw [scaled_zero, ← scaled_zero e] at hvalue
    exact hc (scaled_inj hvalue)
  have hfirst : adjusted c e = adjusted m place := by
    refine le_antisymm ?_ ?_
    · exact (adjusted_le_iff hc).mpr (hvalue ▸ (adjusted_le_iff hm).mp le_rfl)
    · exact (adjusted_le_iff hm).mpr (hvalue ▸ (adjusted_le_iff hc).mp le_rfl)
  have hlarge : adjusted m place ≤ b.maxExponent := (adjusted_le_iff hm).mpr hsmall
  have hdigits : Text.digitCount m ≤ b.precision := (Text.digitCount_le_iff hb).mpr hfit
  have hspan : adjusted m place - place + 1 = Text.digitCount m := by
    have := Text.digitCount_pos m
    unfold adjusted
    omega
  have hkept : (if place ≤ e then c * Nat.pow 10 (e - place).toNat
      else dropDigits c (place - e).toNat) = m := by
    split
    · next h =>
      rw [scaled_of_le h] at hvalue
      exact scaled_inj hvalue
    · next h =>
      rw [scaled_of_le (not_le.mp h).le] at hvalue
      rw [scaled_inj hvalue, dropDigits_mul]
  simp only [quantize, if_neg hrange, if_neg hc, hkept]
  rw [if_neg (by omega), if_neg (by omega)]

end TipJar.Decimal
