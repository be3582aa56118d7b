import TipJar.Proofs.Checking
import TipJar.Proofs.Deadlines

/-! What the announcement of a drop says.

The time that remains is a length in microseconds, read as a floating-point number of
seconds, truncated, and split into hours and minutes. None of this loses anything: a
deadline is a whole number of units after its opening, and a whole number of seconds
that reaches from one reading of the calendar to another is far from the numbers that
have no exact reading. So the hours and minutes that everybody sees are the duration
that was asked for. -/
namespace TipJar

/-! ### Whole quotients -/

namespace Binary64
variable {k den : Nat}

/-- A whole quotient that fits a significand is never scaled up. -/
theorem exponentFor_nonpos (small : k < 2 ^ precision) (pos : 0 < den) :
    exponentFor (k * den) den ≤ 0 := by
  have hlog : Nat.log2 (k * den) < precision + Nat.log2 den + 1 := by
    by_cases hzero : k * den = 0
    · rw [hzero]
      exact Nat.succ_pos _
    · refine (Nat.log2_lt hzero).mpr ?_
      rw [Nat.add_assoc, Nat.pow_add]
      exact Nat.mul_lt_mul'' small Nat.lt_log2_self
  have hlow : (Nat.log2 (k * den) : Int) - Nat.log2 den - precision ≤ 0 := by omega
  unfold exponentFor
  dsimp only
  generalize (Nat.log2 (k * den) : Int) - Nat.log2 den - precision = low at hlow
  refine max_le (by decide) ?_
  split
  · exact hlow
  · next hlarge =>
    -- At exponent zero the quotient is the number itself, which is small.
    have hne : low ≠ 0 := by
      rintro rfl
      refine hlarge ?_
      show k * den / (den * Nat.pow 2 0) < Nat.pow 2 precision
      rw [show Nat.pow 2 0 = 1 from rfl, Nat.mul_one, Nat.mul_div_cancel _ pos]
      exact small
    omega

/-- Scaling a whole quotient down by a power of two is exact. -/
theorem roundQuotient_unscaled {exponent : Int} (pos : 0 < den) (nonpos : exponent ≤ 0) :
    roundQuotient (unscaled (k * den) den exponent).1 (unscaled (k * den) den exponent).2 =
      k * 2 ^ exponent.natAbs := by
  unfold unscaled
  split
  · next h =>
    obtain rfl : exponent = 0 := Int.le_antisymm nonpos h
    show roundQuotient (k * den) (den * Nat.pow 2 0) = k * 2 ^ 0
    rw [show Nat.pow 2 0 = 1 from rfl, Nat.mul_one, Nat.pow_zero, Nat.mul_one]
    exact roundQuotient_mul k den pos
  · show roundQuotient (k * den * 2 ^ exponent.natAbs) den = _
    rw [Nat.mul_right_comm]
    exact roundQuotient_mul _ den pos

/-- What has no bits below the point is its own truncation. -/
theorem truncate?_scaled {negative : Bool} {exponent : Int} (nonpos : exponent ≤ 0) :
    (finite negative (k * 2 ^ exponent.natAbs) exponent).truncate? = some (signed negative k) := by
  unfold truncate?
  dsimp only
  split
  · next h =>
    obtain rfl : exponent = 0 := Int.le_antisymm nonpos h
    rw [show k * 2 ^ (0 : Int).natAbs * Nat.pow 2 (0 : Int).toNat = k from by simp]
  · rw [show k * 2 ^ exponent.natAbs / Nat.pow 2 exponent.natAbs = k from
      Nat.mul_div_cancel k (Nat.pow_pos (by decide))]

/-- A whole quotient that fits a significand is read exactly. -/
theorem truncate?_ofRatio (negative : Bool) (small : k < 2 ^ precision) (pos : 0 < den) :
    (ofRatio negative (k * den) den).truncate? = some (signed negative k) := by
  unfold ofRatio
  split
  · next hzero =>
    obtain rfl : k = 0 := (Nat.mul_eq_zero.mp hzero).resolve_right (Nat.pos_iff_ne_zero.mp pos)
    have hnothing : (finite negative (0 * 2 ^ minExponent.natAbs) minExponent).truncate? =
        some (signed negative (0 : Nat)) := truncate?_scaled (by decide)
    rw [Nat.zero_mul] at hnothing
    exact hnothing
  · have nonpos := exponentFor_nonpos small pos
    have hrounded := roundQuotient_unscaled (k := k) pos nonpos
    generalize exponentFor (k * den) den = exponent at nonpos hrounded
    dsimp only
    rw [hrounded]
    by_cases hcarry : k * 2 ^ exponent.natAbs = Nat.pow 2 precision
    · rw [if_pos hcarry]
      dsimp only
      -- All the bits are carried into one, and the number was scaled at least once.
      have hscaled : exponent ≠ 0 := by
        rintro rfl
        have hk : k = 2 ^ precision := by simpa using hcarry
        omega
      have hup : exponent + 1 ≤ 0 := by omega
      have habs : exponent.natAbs = (exponent + 1).natAbs + 1 := by omega
      have hhalf : Nat.pow 2 (precision - 1) = k * 2 ^ (exponent + 1).natAbs := by
        have hdouble : Nat.pow 2 (precision - 1) * 2 = k * 2 ^ (exponent + 1).natAbs * 2 := by
          rw [Nat.mul_assoc, ← Nat.pow_succ, Nat.succ_eq_add_one, ← habs, hcarry]
          rfl
        exact Nat.eq_of_mul_eq_mul_right (by decide) hdouble
      rw [if_neg (by unfold maxExponent; omega), hhalf]
      exact truncate?_scaled hup
    · rw [if_neg hcarry]
      dsimp only
      rw [if_neg (by unfold maxExponent; omega)]
      exact truncate?_scaled nonpos

end Binary64

/-! ### The time that remains -/

namespace DurationUnit

/-- The minutes that a unit lasts. -/
def inMinutes : DurationUnit → Nat
  | hours => 60
  | minutes => 1

theorem micros_eq (u : DurationUnit) : u.micros = u.inMinutes * Duration.microsPerMinute := by
  cases u <;> rfl

end DurationUnit

/-- Whole seconds that fit a significand are counted exactly. -/
theorem Duration.wholeSeconds_of_small {seconds : Nat} (small : seconds < 2 ^ Binary64.precision) :
    Duration.wholeSeconds ⟨(seconds * microsPerSecond : Nat)⟩ = seconds := by
  have hsign : decide (((seconds * microsPerSecond : Nat) : Int) < 0) = false :=
    decide_eq_false (Int.not_lt.mpr (Int.natCast_nonneg _))
  unfold wholeSeconds
  dsimp only
  rw [hsign, Int.natAbs_natCast, Binary64.truncate?_ofRatio false small (by decide)]
  rfl

namespace Drop

/-- The text that opens a drop for which so many hours and minutes remain. -/
def opening (amount token : String) (hours minutes : Nat) : String :=
  ">>> **A reactdrop of " ++ amount ++ " was started!**\n\nReact with the " ++ token ++
    " emoji to participate\n\nTime remaining: " ++ Text.integerText hours ++
    " hour(s) and " ++ Text.integerText minutes ++ " minute(s)"

/-- A number of minutes that is not astronomical is told as hours and minutes. -/
theorem announcement_of_minutes {minutes : Nat} (amount token : String)
    (small : minutes * 60 < 2 ^ Binary64.precision) :
    announcement amount token ⟨(minutes * Duration.microsPerMinute : Nat)⟩ =
      opening amount token (minutes / 60) (minutes % 60) := by
  have hmicros : minutes * Duration.microsPerMinute = minutes * 60 * Duration.microsPerSecond :=
    (Nat.mul_assoc minutes 60 Duration.microsPerSecond).symm
  have hminutes : (((minutes * 60 : Nat) : Int)).fdiv 60 = minutes := by
    rw [Int.fdiv_eq_ediv_of_nonneg _ (by decide)]
    omega
  unfold announcement opening
  rw [hmicros, Duration.wholeSeconds_of_small small, hminutes]
  dsimp only
  rw [Int.fdiv_eq_ediv_of_nonneg _ (by decide), Int.fmod_eq_emod_of_nonneg _ (by decide)]
  rfl

/-! ### Deadlines that are granted -/

section Deadlines
variable {opened deadline : Moment} {count unit longest : Value} {length : Duration}

theorem ofMicros_ok {micros : Int}
    (h : Checked.ofDuration (Duration.ofMicros micros) = .ok length) : length = ⟨micros⟩ := by
  unfold Duration.ofMicros at h
  dsimp only at h
  split at h
  · cases h
  · split at h
    · cases h
    · exact (Except.ok.inj h).symm

theorem lengthOf_ok {n : Int} (h : lengthOf (.scalar (.int n)) unit = .ok length) :
    ∃ u, readUnit unit = .ok u ∧ length = ⟨n * u.micros⟩ := by
  obtain ⟨u, hunit, h⟩ := Checked.bind_ok.mp h
  refine ⟨u, hunit, ofMicros_ok ?_⟩
  cases u with
  | hours => exact (Value.duration_int n "hours" _).symm.trans h
  | minutes => exact (Value.duration_int n "minutes" _).symm.trans h

/-- A length that is granted is a positive number of units. -/
theorem checkedLength_ok (h : checkedLength count unit longest = .ok length) :
    ∃ (n : Nat) (u : DurationUnit), count = .scalar (.int n) ∧ 1 ≤ n ∧ readUnit unit = .ok u ∧
      length = ⟨(n * u.micros : Nat)⟩ := by
  obtain ⟨label, -, h⟩ := Checked.bind_ok.mp h
  split at h
  case h_2 => cases h
  case h_1 n _ =>
    split at h
    · cases h
    next least =>
    dsimp only at h
    split at h
    · obtain ⟨_, hnever, -⟩ := Checked.bind_ok.mp h
      cases hnever
    obtain ⟨measured, hmeasured, h⟩ := Checked.bind_ok.mp h
    obtain ⟨most, -, h⟩ := Checked.bind_ok.mp h
    split at h
    · obtain ⟨_, -, hnever⟩ := Checked.bind_ok.mp h
      cases hnever
    obtain rfl := Except.ok.inj h
    obtain ⟨u, hunit, rfl⟩ := lengthOf_ok hmeasured
    obtain ⟨m, rfl⟩ := Int.eq_ofNat_of_zero_le (show 0 ≤ n by omega)
    exact ⟨m, u, rfl, by omega, hunit, rfl⟩

/-- A deadline that is granted is a positive number of units after its opening. -/
structure Grants (opened : Moment) (count unit : Value) (deadline : Moment) (n : Nat)
    (u : DurationUnit) : Prop where
  count : count = .scalar (.int n)
  least : 1 ≤ n
  unit : readUnit unit = .ok u
  later : deadline.wall = opened.wall + n * u.micros
  zone : deadline.offset = opened.offset

theorem deadlineFor_ok (h : deadlineFor opened count unit longest = .ok deadline) :
    ∃ n u, Grants opened count unit deadline n u := by
  obtain ⟨length, hlength, h⟩ := Checked.bind_ok.mp h
  obtain ⟨n, u, hcount, least, hunit, rfl⟩ := checkedLength_ok hlength
  cases hadded : opened.add? ⟨(n * u.micros : Nat)⟩ with
  | none =>
    rw [hadded] at h
    cases h
  | some later =>
    rw [hadded] at h
    obtain rfl := Except.ok.inj h
    obtain ⟨hwall, zone⟩ := Moment.of?_wall hadded
    dsimp only at hwall
    exact ⟨n, u, hcount, least, hunit, by exact_mod_cast hwall, zone⟩

variable {n : Nat} {u : DurationUnit}

theorem Grants.instant (h : Grants opened count unit deadline n u) :
    deadline.instant = opened.instant + (n * u.micros : Nat) := by
  unfold Moment.instant
  rw [h.zone, h.later]
  omega

/-- A deadline that is granted comes after the opening. -/
theorem Grants.noLater (h : Grants opened count unit deadline n u) :
    deadline.noLater opened = .ok false := by
  have hpos : 0 < n * u.micros := Nat.mul_pos h.least (by cases u <;> decide)
  unfold Moment.noLater Moment.isNaive
  rw [h.zone, if_pos rfl, h.instant, decide_eq_false (by omega)]

/-- The announcement tells the time that was asked for. -/
theorem Grants.announcement (h : Grants opened count unit deadline n u) (amount token : String) :
    announcement amount token (deadline.since opened) =
      opening amount token (n * u.inMinutes / 60) (n * u.inMinutes % 60) := by
  have hmicros : n * u.micros = n * u.inMinutes * Duration.microsPerMinute := by
    rw [u.micros_eq, Nat.mul_assoc]
  have hsince : deadline.since opened =
      ⟨(n * u.inMinutes * Duration.microsPerMinute : Nat)⟩ := by
    unfold Moment.since
    rw [h.instant, hmicros]
    congr 1
    omega
  have hwall : deadline.wall < Moment.limit := deadline.wall_lt
  have hcalendar : Moment.limit ≤ 2 ^ Binary64.precision * Duration.microsPerSecond := by decide
  have hlater := h.later
  rw [hmicros] at hlater
  rw [hsince, announcement_of_minutes]
  refine Nat.lt_of_mul_lt_mul_right (a := Duration.microsPerSecond) ?_
  rw [Nat.mul_assoc _ 60]
  change n * u.inMinutes * Duration.microsPerMinute < _
  omega

end Deadlines
end Drop
end TipJar
