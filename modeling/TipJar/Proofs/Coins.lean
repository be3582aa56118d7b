import TipJar.Amount.Coins
import TipJar.Proofs.Decimals

/-! Amounts read from coins.

The units of an amount in coins are one product, computed with as many digits as
decimals keep, and only then is it asked whether they are whole. So a value of at
most 28 digits is read exactly or refused. Of a longer one the digits behind the
28th are lost first: what is read is the nearest number of units that has so few
digits, even if the value itself is finer than a unit, below zero or too long for
any amount to stand for it. -/
namespace TipJar
open Decimal

/-- The values that amounts in coins are written as. -/
inductive Value.IsCoins : Value → Prop
  | decimal (d : Decimal) : IsCoins (.scalar (.decimal d))
  | text (s : String) : IsCoins (.scalar (.text s))

namespace Amount

/-- What reading an amount of `r` units gives: that amount if it is one and not too large, and an
invalid value or an overflow otherwise. -/
def ReadAs (r : ℚ) (got : Checked Amount) : Prop :=
  (∀ a, got = .ok a ↔ r = a.units ∧ r < 10 ^ (standard.maxExponent + 1)) ∧
    ∀ fault, got = .error fault → (∃ why, fault = .invalid why) ∨
      fault = .arithmetic .overflow ∧ 10 ^ (standard.maxExponent + 1) ≤ |r|

/-- A count that decimals keep every digit of is far from overflowing. -/
theorem lt_largest {n : Nat} (hfit : n < 10 ^ standard.precision) :
    (n : ℚ) < 10 ^ (standard.maxExponent + 1) :=
  calc (n : ℚ) < 10 ^ standard.precision := by exact_mod_cast hfit
    _ = 10 ^ (standard.precision : Int) := (zpow_natCast _ _).symm
    _ ≤ 10 ^ (standard.maxExponent + 1) := zpow_le_zpow_right₀ (by norm_num) (by decide)

theorem holds_units {n : Nat} (hfit : n < 10 ^ standard.precision) : standard.Holds (n : ℚ) :=
  ⟨n, 0, hfit, by decide, by rw [Nat.abs_cast, scaled_natural le_rfl]; simp⟩

theorem readAs_ok {n : Nat} (hsmall : (n : ℚ) < 10 ^ (standard.maxExponent + 1)) :
    ReadAs n (.ok ⟨n⟩) := by
  refine ⟨fun a => ⟨?_, ?_⟩, nofun⟩
  · rintro ⟨⟩
    exact ⟨rfl, hsmall⟩
  · rintro ⟨hunits, -⟩
    exact congrArg Except.ok (Amount.ext (by exact_mod_cast hunits))

theorem readAs_invalid {r : ℚ} (h : ∀ n : Nat, r ≠ n) (why : Invalid) :
    ReadAs r (.error (.invalid why)) := by
  refine ⟨fun a => ⟨nofun, fun hunits => absurd hunits.1 (h _)⟩, ?_⟩
  rintro _ ⟨⟩
  exact .inl ⟨why, rfl⟩

/-- A whole number of units is an amount unless it is below zero. -/
theorem readAs_ofUnits (negative : Bool) {n : Nat}
    (hsmall : (n : ℚ) < 10 ^ (standard.maxExponent + 1)) :
    ReadAs (signed negative n) (ofUnits (if negative then -(n : Int) else n)) := by
  cases negative with
  | false => exact readAs_ok hsmall
  | true =>
    rcases Nat.eq_zero_or_pos n with rfl | hn
    · have hzero : signed true ((0 : Nat) : ℚ) = (0 : Nat) := neg_zero
      rw [hzero]
      exact readAs_ok hsmall
    · have hbelow : ∀ m : Nat, -(n : ℚ) ≠ m := by
        intro m h
        have : (0 : ℚ) < n := by exact_mod_cast hn
        have : (0 : ℚ) ≤ m := m.cast_nonneg
        linarith
      unfold ofUnits
      rw [if_pos rfl, if_pos (by omega)]
      exact readAs_invalid hbelow _

theorem readAs_overflow {r : ℚ} (hlarge : 10 ^ (standard.maxExponent + 1) ≤ |r|) :
    ReadAs r (.error (.arithmetic .overflow)) := by
  refine ⟨fun a => ⟨nofun, fun ⟨hunits, hsmall⟩ => ?_⟩, ?_⟩
  · rw [abs_of_nonneg (hunits ▸ a.units.cast_nonneg)] at hlarge
    exact absurd hsmall (not_lt.mpr hlarge)
  · rintro _ ⟨⟩
    exact .inr ⟨rfl, hlarge⟩

/-- The units of a decimal number of coins. -/
theorem readAs_ofDecimal (negative : Bool) (c : Nat) (e : Int) (written : String) :
    ReadAs (signed negative (standard.rounded (c * unitsPerCoin) e))
      (ofDecimal (.finite negative c e) written) := by
  unfold ofDecimal
  simp only [scale]
  obtain ⟨kept, last, hok, hvalue, hsmall⟩ | ⟨hover, hlarge⟩ :=
    bounded_gives (b := standard) (by decide) negative (c * unitsPerCoin) e
  · rw [← hvalue] at hsmall ⊢
    rw [hok]
    show ReadAs _ (if !(finite negative kept last).isWhole then _ else
      ofUnits (((finite negative kept last).truncate).getD 0))
    by_cases hwhole : (finite negative kept last).isWhole = true
    · obtain ⟨n, hn⟩ := (isWhole_iff ..).mp hwhole
      rw [hn] at hsmall ⊢
      rw [hwhole, truncate_of_whole negative hn]
      exact readAs_ofUnits negative hsmall
    · rw [Bool.not_eq_true] at hwhole
      rw [hwhole]
      refine readAs_invalid (fun n hn => ?_) _
      have hsize := congrArg (|·|) hn
      simp only [abs_signed, Nat.abs_cast, abs_of_nonneg (scaled_nonneg kept last)] at hsize
      exact absurd ((isWhole_iff negative kept last).mpr ⟨n, hsize⟩) (by simp [hwhole])
  · rw [hover]
    exact readAs_overflow (by rwa [abs_signed, abs_of_nonneg (Bounds.rounded_nonneg ..)])

/-- What is too large for a decimal is found out before it is asked whether it is whole. -/
theorem ofDecimal_overflow {negative : Bool} {c : Nat} {e : Int}
    (hlarge : 10 ^ (standard.maxExponent + 1) ≤ standard.rounded (c * unitsPerCoin) e)
    (written : String) :
    ofDecimal (.finite negative c e) written = .error (.arithmetic .overflow) := by
  unfold ofDecimal
  simp only [scale]
  obtain ⟨-, -, -, -, hsmall⟩ | ⟨hover, -⟩ :=
    bounded_gives (b := standard) (by decide) negative (c * unitsPerCoin) e
  · exact absurd hsmall (not_lt.mpr hlarge)
  · rw [hover]
    rfl

/-- A decimal or a text is read as the number that it is written as. -/
theorem ofCoins_finite {v : Value} {negative : Bool} {c : Nat} {e : Int} (h : v.IsCoins)
    (hread : readCoins? v = some (.finite negative c e)) :
    ∃ written, ofCoins v = ofDecimal (.finite negative c e) written := by
  obtain ⟨written, hplain⟩ : ∃ written, Checked.ofArithmetic v.plain = .ok written := by
    cases h with
    | decimal d => exact ⟨d.text, rfl⟩
    | text s => exact ⟨s, rfl⟩
  have hfinite : (Decimal.finite negative c e).isFinite = true := rfl
  have hread : ofCoins v = Except.ok written >>= ofDecimal (.finite negative c e) := by
    cases h <;> simp only [ofCoins, hread, hfinite, hplain, if_true]
  exact ⟨written, hread.trans (pure_bind written _)⟩

/-- A count of units with so few digits is read from the coins that it makes. -/
theorem ofCoins_units {v : Value} {n : Nat} (h : v.IsCoins)
    (hread : readCoins? v = some (.finite false n (-(decimalPlaces : Int))))
    (hfit : n < 10 ^ standard.precision) : ofCoins v = .ok ⟨n⟩ := by
  have hunits : scaled (n * unitsPerCoin) (-(decimalPlaces : Int)) = n := by
    rw [scaled_eq_natural_iff (by decide)]
    rfl
  have hholds : standard.Holds (scaled (n * unitsPerCoin) (-(decimalPlaces : Int))) :=
    hunits ▸ holds_units hfit
  obtain ⟨written, hof⟩ := ofCoins_finite h hread
  have hreads := readAs_ofDecimal false n (-(decimalPlaces : Int)) written
  rw [Bounds.rounded_of_holds (by decide) hholds, hunits] at hreads
  rw [hof]
  exact (hreads.1 ⟨n⟩).mpr ⟨rfl, lt_largest hfit⟩

/-- What is no number is refused. -/
theorem ofCoins_unreadable {v : Value} (h : v.IsCoins)
    (hread : (readCoins? v).bind value? = none) :
    ofCoins v = .error (.invalid (.unreadableAmount v.shown)) := by
  rcases hcoins : readCoins? v with _ | d
  · cases h <;> simp only [ofCoins, hcoins]
  · have hinfinite : d.isFinite = false := by
      rw [hcoins] at hread
      cases d <;> first | rfl | cases hread
    clear hread
    cases h <;> simp only [ofCoins, hcoins, hinfinite, Bool.false_eq_true, if_false]

/-- Values of at most 28 digits are read exactly or refused; of longer ones the nearest number of
units with so few digits is read. What is no number is refused. -/
theorem ofCoins_reads_28_digits {v : Value} (h : v.IsCoins) :
    match (readCoins? v).bind value? with
    | none => ofCoins v = .error (.invalid (.unreadableAmount v.shown))
    | some coins => ∃ r, standard.Near (coins * unitsPerCoin) r ∧
        (standard.Holds (coins * unitsPerCoin) → r = coins * unitsPerCoin) ∧
        ReadAs r (ofCoins v) := by
  split
  · next hread => exact ofCoins_unreadable h hread
  · next coins hread =>
    obtain ⟨d, hd, hvalue⟩ := Option.bind_eq_some_iff.mp hread
    obtain ⟨negative, c, e⟩ | _ | _ := d
    · obtain rfl := Option.some_inj.mp hvalue
      obtain ⟨written, hof⟩ := ofCoins_finite h hd
      have hunits : signed negative (scaled c e) * unitsPerCoin =
          signed negative (scaled (c * unitsPerCoin) e) := by
        rw [scaled_mul, signed_mul]
      refine ⟨signed negative (standard.rounded (c * unitsPerCoin) e), ?_, fun hholds => ?_, ?_⟩
      · rw [hunits]
        exact Bounds.near_signed Bounds.rounded_near negative
      · rw [hunits] at hholds ⊢
        rw [Bounds.rounded_of_holds (by decide) (Bounds.holds_signed.mp hholds)]
      · rw [hof]
        exact readAs_ofDecimal negative c e written
    · cases hvalue
    · cases hvalue

/-- A text of 29 digits, the last of which is finer than a unit. -/
def longCoins : Value := .scalar (.text "12345678901234567890.000000001")

/-- The last digit is lost before it is asked whether the units are whole. -/
theorem longCoins_rounded :
    ∃ r, standard.Near (scaled 12345678901234567890000000001 (-9) * unitsPerCoin) r ∧
      r ≠ scaled 12345678901234567890000000001 (-9) * unitsPerCoin ∧
      ReadAs r (ofCoins longCoins) ∧ ofCoins longCoins = .ok ⟨1234567890123456789000000000⟩ := by
  have hread : readCoins? longCoins = some (.finite false 12345678901234567890000000001 (-9)) := by
    decide +kernel
  have hok : ofCoins longCoins = .ok ⟨1234567890123456789000000000⟩ := by
    have hsome : (ofCoins longCoins).toOption = some ⟨1234567890123456789000000000⟩ := by
      decide +kernel
    cases hcoins : ofCoins longCoins with
    | error why => cases (congrArg Except.toOption hcoins).symm.trans hsome
    | ok a => rw [Option.some_inj.mp ((congrArg Except.toOption hcoins).symm.trans hsome)]
  have hreads := ofCoins_reads_28_digits (v := longCoins) (.text _)
  rw [hread] at hreads
  obtain ⟨r, hnear, -, hr⟩ := hreads
  have hunits : r = (1234567890123456789000000000 : Nat) := ((hr.1 _).mp hok).1
  refine ⟨r, hnear, ?_, hr, hok⟩
  rw [hunits]
  norm_num [scaled, unitsPerCoin, decimalPlaces]

end Amount
end TipJar
