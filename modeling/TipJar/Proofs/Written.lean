import TipJar.Proofs.Coins

/-! Amounts written out.

An amount with no more digits than decimals keep has a value in coins: the quotient
by the units of a coin ends after eight places at most, and moving its last digit to
the eighth place rounds nothing. So its text is the coins, a point and eight digits,
and both the text and the value are read as the amount again. -/
namespace TipJar.Amount
open Decimal

/-- The value in coins has eight places, and as digits those of the units. -/
theorem toCoins_ok {a : Amount} (hfit : a.units < 10 ^ standard.precision) :
    a.toCoins = .ok (.finite false a.units (-(decimalPlaces : Int))) := by
  have hsmall : scaled a.units (0 - (decimalPlaces : Int)) < 10 ^ (standard.maxExponent + 1) := by
    refine lt_of_le_of_lt ?_ (lt_largest hfit)
    exact mul_le_of_le_one_right a.units.cast_nonneg
      (zpow_le_one_of_nonpos₀ (by norm_num) (by decide))
  have hunits : ofInt a.units = .finite false a.units 0 := by
    simp [ofInt]
  obtain ⟨kept, last, hquotient, hvalue⟩ :=
    quotient_pow (b := standard) (by decide) false hfit (by decide) hsmall
  have hquantized : quantize standard (.finite false kept last) (-(decimalPlaces : Int)) =
      .ok (.finite false a.units (-(decimalPlaces : Int))) :=
    quantize_of_scaled (by decide) false hvalue hfit (by decide) (by decide) hsmall
  unfold toCoins
  rw [hunits]
  exact (congrArg (· >>= _) hquotient).trans hquantized

/-- The digits of the units, with a point before the last eight. -/
theorem text_ok {a : Amount} (hfit : a.units < 10 ^ standard.precision) :
    a.text = .ok (String.ofList (withPoint (Text.digitsOf a.units) decimalPlaces)) := by
  have hdigits : (Decimal.finite false a.units (-(decimalPlaces : Int))).positional =
      String.ofList (withPoint (Text.digitsOf a.units) decimalPlaces) := by
    have hall : a.units * Nat.pow 10 (-(decimalPlaces : Int)).toNat = a.units := Nat.mul_one _
    simp only [positional, unsignedPositional, hall]
    exact String.empty_append
  unfold text
  rw [toCoins_ok hfit]
  exact congrArg Except.ok hdigits

/-- A point parts the coins from the digits behind them. -/
theorem withPoint_parts (a : Amount) :
    String.ofList (withPoint (Text.digitsOf a.units) decimalPlaces) =
      toString (a.units / unitsPerCoin) ++ "." ++
        Text.padded decimalPlaces (a.units % unitsPerCoin) := by
  have hpoint (ds : List Char) : String.ofList ('.' :: ds) = "." ++ String.ofList ds :=
    @String.ofList_append ['.'] ds
  rw [withPoint_digitsOf (by decide), Text.padded_eq, String.ofList_append, hpoint,
    String.append_assoc]
  rfl

/-- The coins with all their places, and their name. -/
def printed (a : Amount) (ticker : String) : String :=
  toString (a.units / unitsPerCoin) ++ "." ++ Text.padded decimalPlaces (a.units % unitsPerCoin) ++
    " " ++ ticker

theorem format_eq_printed {a : Amount} (hfit : a.units < 10 ^ standard.precision)
    (ticker : String) : a.format ticker = .ok (a.printed ticker) := by
  unfold format printed
  rw [text_ok hfit, ← withPoint_parts]
  rfl

/-- The text is read as the digits it consists of. -/
theorem readCoins?_text {a : Amount} (hfit : a.units < 10 ^ standard.precision) :
    readCoins? (.scalar (.text (String.ofList (withPoint (Text.digitsOf a.units) decimalPlaces)))) =
      some (.finite false a.units (-(decimalPlaces : Int))) := by
  have hdigits : Text.digitCount a.units ≤ standard.precision :=
    (Text.digitCount_le_iff (by decide)).mpr hfit
  have htrim := trim_of_plain fun c (hc : c ∈ withPoint (Text.digitsOf a.units) decimalPlaces) =>
    isPlain_withPoint (by decide) hc
  have hparse : parse? (String.ofList (withPoint (Text.digitsOf a.units) decimalPlaces)) = _ :=
    parse?_withPoint (by decide) (hdigits.trans (by decide)) (by decide)
  simp only [readCoins?, Value.plain, Scalar.plain, Except.toOption, Option.bind_some, htrim,
    hparse]

/-- Every amount that decimals keep all digits of is written exactly, and read back from its text as
well as from its value in coins. -/
theorem written_exactly {a : Amount} (hfit : a.units < 10 ^ standard.precision) (ticker : String) :
    let places := Text.padded decimalPlaces (a.units % unitsPerCoin)
    let written := toString (a.units / unitsPerCoin) ++ "." ++ places
    places.length = decimalPlaces ∧ a.text = .ok written ∧
      a.format ticker = .ok (written ++ " " ++ ticker) ∧
      ofCoins (.scalar (.text written)) = .ok a ∧
      ∃ coins, a.toCoins = .ok coins ∧ ofCoins (.scalar (.decimal coins)) = .ok a := by
  dsimp only
  rw [← withPoint_parts]
  refine ⟨?_, text_ok hfit, ?_, ofCoins_units (.text _) (readCoins?_text hfit) hfit,
    _, toCoins_ok hfit, ofCoins_units (.decimal _) rfl hfit⟩
  · rw [Text.padded_eq, String.length_ofList]
    exact Text.length_paddedDigits (Nat.mod_lt _ (by decide)) (by decide)
  · unfold format
    rw [text_ok hfit]
    rfl

/-- An amount of 28 digits. -/
def fullAmount : Amount := ⟨1234567890123456789012345608⟩

theorem fullAmount_written :
    fullAmount.units < 10 ^ standard.precision ∧
      fullAmount.text = .ok "12345678901234567890.12345608" ∧
      ofCoins (.scalar (.text "12345678901234567890.12345608")) = .ok fullAmount := by
  have hfit : fullAmount.units < 10 ^ standard.precision := by decide
  have hwritten : toString (fullAmount.units / unitsPerCoin) ++ "." ++
      Text.padded decimalPlaces (fullAmount.units % unitsPerCoin) =
        "12345678901234567890.12345608" := by decide +kernel
  obtain ⟨-, htext, -, hread, -⟩ := written_exactly hfit defaultTicker
  rw [hwritten] at htext hread
  exact ⟨hfit, htext, hread⟩

end TipJar.Amount
