import Mathlib.Algebra.Order.Ring.Nat
import Mathlib.Data.List.Basic
import TipJar.Decimal.Parser
import TipJar.Decimal.Printer

/-! Digits, and the numbers that they write.

How many digits a number has says between which powers of ten it lies, and that is
all that the arithmetic of decimals asks of digits. Texts ask more: the digits of a
number fall apart at any place into those of a quotient and those of a remainder,
the latter with zeros in front, and reading digits gives back the number that was
written. -/
namespace TipJar
namespace Text

/-! ### How many there are -/

theorem digitCount_pos (n : Nat) : 0 < digitCount n := Nat.length_toDigits_pos

theorem digitCount_le_iff {n k : Nat} (h : 0 < k) : digitCount n ≤ k ↔ n < 10 ^ k :=
  Nat.length_toDigits_le_iff (by decide) h

theorem lt_pow_digitCount (n : Nat) : n < 10 ^ digitCount n :=
  (digitCount_le_iff (digitCount_pos n)).mp le_rfl

theorem pow_le_of_lt_digitCount {n k : Nat} (h : k < digitCount n) (hn : n ≠ 0) : 10 ^ k ≤ n := by
  cases k with
  | zero => exact Nat.one_le_iff_ne_zero.mpr hn
  | succ k =>
    by_contra hlt
    exact absurd ((digitCount_le_iff (Nat.succ_pos k)).mpr (not_le.mp hlt)) (not_le.mpr h)

/-- The number of digits of a number between two powers of ten. -/
theorem digitCount_eq {n k : Nat} (least : 10 ^ k ≤ n) (most : n < 10 ^ (k + 1)) :
    digitCount n = k + 1 := by
  refine le_antisymm ((digitCount_le_iff (Nat.succ_pos k)).mpr most) ?_
  by_contra h
  have hlow : 10 ^ digitCount n ≤ 10 ^ k :=
    Nat.pow_le_pow_right (by decide) (Nat.le_of_lt_succ (not_le.mp h))
  exact absurd (lt_pow_digitCount n) (not_lt.mpr (hlow.trans least))

theorem digitCount_mul_pow {n : Nat} (hn : n ≠ 0) (k : Nat) :
    digitCount (n * 10 ^ k) = digitCount n + k := by
  obtain ⟨d, hd⟩ : ∃ d, digitCount n = d + 1 :=
    ⟨digitCount n - 1, (Nat.succ_pred_eq_of_pos (digitCount_pos n)).symm⟩
  have hlow : 10 ^ d ≤ n := pow_le_of_lt_digitCount (by omega) hn
  have hhigh : n < 10 ^ (d + 1) := hd ▸ lt_pow_digitCount n
  rw [hd, show d + 1 + k = d + k + 1 by omega]
  refine digitCount_eq ?_ ?_
  · rw [pow_add]
    exact Nat.mul_le_mul_right _ hlow
  · rw [show d + k + 1 = d + 1 + k by omega, pow_add]
    exact Nat.mul_lt_mul_of_pos_right hhigh (Nat.pow_pos (by decide))

/-! ### Where they fall apart -/

/-- The digits of a number behind as many zeros as make them so many at least. -/
def paddedDigits (width n : Nat) : List Char :=
  List.replicate (width - (digitsOf n).length) '0' ++ digitsOf n

theorem padded_eq (width n : Nat) : padded width n = String.ofList (paddedDigits width n) := rfl

theorem length_paddedDigits {width n : Nat} (h : n < 10 ^ width) (hw : 0 < width) :
    (paddedDigits width n).length = width := by
  have hshort : (digitsOf n).length ≤ width := (digitCount_le_iff hw).mpr h
  unfold paddedDigits
  rw [List.length_append, List.length_replicate]
  omega

theorem digitsOf_of_lt {n : Nat} (h : n < 10) : digitsOf n = [n.digitChar] :=
  Nat.toDigits_of_lt_base h

theorem digitsOf_of_le {n : Nat} (h : 10 ≤ n) :
    digitsOf n = digitsOf (n / 10) ++ [(n % 10).digitChar] :=
  Nat.toDigits_of_base_le (by decide) h

/-- The last digit comes last, whether there are zeros in front or not. -/
theorem paddedDigits_succ {width : Nat} (hw : 0 < width) (n : Nat) :
    paddedDigits (width + 1) n = paddedDigits width (n / 10) ++ [(n % 10).digitChar] := by
  unfold paddedDigits
  rcases Nat.lt_or_ge n 10 with h | h
  · obtain ⟨w, rfl⟩ : ∃ w, width = w + 1 := ⟨width - 1, by omega⟩
    rw [digitsOf_of_lt h, Nat.div_eq_of_lt h, Nat.mod_eq_of_lt h, digitsOf_of_lt (by decide)]
    simp [List.replicate_succ']
  · rw [digitsOf_of_le h]
    simp [List.append_assoc]

/-- The digits of a number are those of a quotient by a power of ten, and then as many as the power
has zeros. -/
theorem paddedDigits_split {places : Nat} (hp : 0 < places) (n : Nat) :
    paddedDigits (places + 1) n =
      digitsOf (n / 10 ^ places) ++ paddedDigits places (n % 10 ^ places) := by
  induction places, hp using Nat.le_induction generalizing n with
  | base =>
    have hdigit : n % 10 < 10 := Nat.mod_lt _ (by decide)
    have hone (m : Nat) : paddedDigits 1 m = digitsOf m := by
      have hsome : 1 ≤ (digitsOf m).length := digitCount_pos m
      unfold paddedDigits
      rw [Nat.sub_eq_zero_of_le hsome]
      rfl
    rw [paddedDigits_succ (by decide), pow_one, hone, hone, digitsOf_of_lt hdigit]
  | succ places hp ih =>
    have hquotient : n / 10 / 10 ^ places = n / 10 ^ (places + 1) := by
      rw [Nat.div_div_eq_div_mul, pow_succ']
    have hrest : n % 10 ^ (places + 1) / 10 = n / 10 % 10 ^ places := by
      rw [pow_succ', Nat.mod_mul_right_div_self]
    have hlast : n % 10 ^ (places + 1) % 10 = n % 10 := by
      rw [pow_succ']
      exact Nat.mod_mod_of_dvd n (Dvd.intro _ rfl)
    rw [paddedDigits_succ (Nat.succ_pos places), ih, paddedDigits_succ hp, hquotient, hrest, hlast,
      List.append_assoc]

/-! ### Reading them -/

theorem isDigit_digitsOf {n : Nat} {c : Char} (h : c ∈ digitsOf n) : c.isDigit = true :=
  Nat.isDigit_of_mem_toDigits (by decide) (by decide) h

theorem isDigit_paddedDigits {width n : Nat} {c : Char} (h : c ∈ paddedDigits width n) :
    c.isDigit = true := by
  rcases List.mem_append.mp h with h | h
  · rw [List.eq_of_mem_replicate h]
    decide
  · exact isDigit_digitsOf h

theorem valueOf_digits (cs : List Char) :
    valueOf (cs.map (·.toNat - 48)) = Nat.ofDigitChars 10 cs 0 := by
  have hstep (acc : Nat) : (cs.map (·.toNat - 48)).foldl (fun acc d => acc * 10 + d) acc =
      Nat.ofDigitChars 10 cs acc := by
    induction cs generalizing acc with
    | nil => rfl
    | cons c cs ih =>
      rw [List.map_cons, List.foldl_cons, ih, Nat.ofDigitChars_cons, Nat.mul_comm]
      rfl
  exact hstep 0

theorem ofDigitChars_paddedDigits (width n : Nat) :
    Nat.ofDigitChars 10 (paddedDigits width n) 0 = n := by
  unfold paddedDigits
  rw [Nat.ofDigitChars_append, Nat.ofDigitChars_replicate_zero, Nat.mul_zero]
  exact Nat.ofDigitChars_toDigits (by decide) (by decide)

/-- Digits on both sides of a split write the whole number. -/
theorem valueOf_split {places : Nat} (hp : 0 < places) (n : Nat) :
    valueOf ((digitsOf (n / 10 ^ places)).map (·.toNat - 48) ++
      (paddedDigits places (n % 10 ^ places)).map (·.toNat - 48)) = n := by
  rw [← List.map_append, ← paddedDigits_split hp, valueOf_digits, ofDigitChars_paddedDigits]

theorem isBlank_of_isDigit {c : Char} (h : c.isDigit = true) : isBlank c = false := by
  simp only [Char.isDigit, Bool.and_eq_true, decide_eq_true_eq] at h
  have hlow : 48 ≤ c.toNat := h.1
  have hhigh : c.toNat ≤ 57 := h.2
  unfold isBlank
  simp only [Bool.or_eq_false_iff, Bool.and_eq_false_iff, decide_eq_false_iff_not,
    beq_eq_false_iff_ne]
  omega

/-- Nothing is stripped off a text that holds nothing of the kind. -/
theorem stripWhere_of_none {p : Char → Bool} {cs : List Char} (h : ∀ c ∈ cs, p c = false) :
    stripWhere p cs = cs := by
  have hdrop (ds : List Char) (hds : ∀ c ∈ ds, p c = false) : ds.dropWhile p = ds := by
    cases ds with
    | nil => rfl
    | cons d ds => rw [List.dropWhile_cons, hds d List.mem_cons_self, if_neg Bool.false_ne_true]
  unfold stripWhere
  rw [hdrop cs h, hdrop cs.reverse fun c hc => h c (List.mem_reverse.mp hc), List.reverse_reverse]

end Text

namespace Decimal

/-! ### Positional text -/

/-- A point so many places from the end parts the digits of the quotient from those of the
remainder. -/
theorem withPoint_digitsOf {places : Nat} (hp : 0 < places) (n : Nat) :
    withPoint (Text.digitsOf n) places =
      Text.digitsOf (n / 10 ^ places) ++ '.' :: Text.paddedDigits places (n % 10 ^ places) := by
  have hsplit := Text.paddedDigits_split hp n
  have hlength : (Text.paddedDigits places (n % 10 ^ places)).length = places :=
    Text.length_paddedDigits (Nat.mod_lt _ (Nat.pow_pos (by decide))) hp
  have hwhole : (Text.paddedDigits (places + 1) n).length - places =
      (Text.digitsOf (n / 10 ^ places)).length := by
    rw [hsplit, List.length_append, hlength]
    omega
  unfold withPoint
  rw [if_neg hp.ne']
  show (Text.paddedDigits (places + 1) n).take ((Text.paddedDigits (places + 1) n).length - places) ++
      '.' :: (Text.paddedDigits (places + 1) n).drop
        ((Text.paddedDigits (places + 1) n).length - places) = _
  rw [hwhole, hsplit, List.take_left, List.drop_left]

/-- A digit or a point. -/
def IsPlain (c : Char) : Prop := c.isDigit = true ∨ c = '.'

theorem IsPlain.isBlank {c : Char} (h : IsPlain c) : Text.isBlank c = false := by
  rcases h with h | rfl
  · exact Text.isBlank_of_isDigit h
  · decide

theorem isPlain_withPoint {places n : Nat} {c : Char} (hp : 0 < places)
    (hc : c ∈ withPoint (Text.digitsOf n) places) : IsPlain c := by
  rw [withPoint_digitsOf hp] at hc
  rcases List.mem_append.mp hc with hc | hc
  · exact .inl (Text.isDigit_digitsOf hc)
  · rcases List.mem_cons.mp hc with rfl | hc
    · exact .inr rfl
    · exact .inl (Text.isDigit_paddedDigits hc)

theorem trim_of_plain {cs : List Char} (h : ∀ c ∈ cs, IsPlain c) :
    Text.trim (String.ofList cs) = String.ofList cs := by
  unfold Text.trim
  rw [String.toList_ofList, Text.stripWhere_of_none fun c hc => (h c hc).isBlank]

/-- Plain characters are read as they stand. -/
theorem plainText_of_plain {cs : List Char} (h : ∀ c ∈ cs, IsPlain c) :
    plainText (String.ofList cs) = cs := by
  unfold plainText
  rw [String.toList_ofList, Text.stripWhere_of_none fun c hc => (h c hc).isBlank]
  refine (List.filterMap_congr fun c hc => ?_).trans List.filterMap_some
  rcases h c hc with hdigit | rfl
  · have hno : (c == '_') = false := by
      rw [beq_eq_false_iff_ne]
      rintro rfl
      cases hdigit
    have hchar : Text.digitChar (c.toNat - 48) = c := by
      simp only [Char.isDigit, Bool.and_eq_true, decide_eq_true_eq] at hdigit
      have hlow : 48 ≤ c.toNat := hdigit.1
      have hhigh : c.toNat ≤ 57 := hdigit.2
      unfold Text.digitChar
      rw [Nat.mod_eq_of_lt (by omega), Nat.add_sub_cancel' hlow]
      exact Char.ofNat_toNat c
    rw [hno, if_neg Bool.false_ne_true, Text.digitValue?_ascii c hdigit]
    exact congrArg some hchar
  · decide

/-- Digits are taken up to the first character that is none. -/
theorem takeDigits_append {cs : List Char} (rest : List Char) (h : ∀ c ∈ cs, c.isDigit = true)
    (stop : ∀ c ∈ rest.head?, c.isDigit = false) :
    takeDigits (cs ++ rest) = (cs.map (·.toNat - 48), rest) := by
  induction cs with
  | nil =>
    cases rest with
    | nil => rfl
    | cons c rest =>
      rw [List.nil_append, takeDigits, stop c rfl, if_neg Bool.false_ne_true]
      rfl
  | cons c cs ih =>
    rw [List.cons_append, takeDigits, if_pos (h c List.mem_cons_self),
      ih fun d hd => h d (List.mem_cons_of_mem _ hd)]
    rfl

/-- What begins with a digit is no special value and has no sign. -/
theorem parse?_of_digit {c : Char} {cs : List Char} (first : c.isDigit = true)
    (h : ∀ d ∈ c :: cs, IsPlain d) :
    parse? (String.ofList (c :: cs)) = unsigned? false (c :: cs) := by
  have hother {d : Char} {ds : List Char} (hd : d.isDigit = false) : c :: cs ≠ d :: ds := by
    intro heq
    obtain ⟨rfl, -⟩ := List.cons.inj heq
    cases first.symm.trans hd
  have hsign : takeSign (c :: cs) = (false, c :: cs) := by
    unfold takeSign
    split
    · next heq => exact absurd heq (hother (by decide))
    · next heq => exact absurd heq (hother (by decide))
    · rfl
  unfold parse?
  rw [plainText_of_plain h, hsign]
  dsimp only
  split
  · next heq => exact absurd heq (hother (by decide))
  · next heq => exact absurd heq (hother (by decide))
  · next heq => exact absurd heq (hother (by decide))
  · next heq => exact absurd heq (hother (by decide))
  · rfl

/-- The exponents that are written with a point and few digits can all be read. -/
theorem readable_of_short {n places : Nat} (short : Text.digitCount n ≤ 1000)
    (near : places ≤ 1000) :
    (if n = 0 then 0 - (places : Int) else adjusted n (0 - places)) ≤ writtenMaxExponent ∧
      writtenMinExponent ≤ 0 - (places : Int) := by
  have := Text.digitCount_pos n
  unfold adjusted writtenMaxExponent writtenMinExponent
  split <;> omega

/-- A number whose digits stand in place with a point among them is read back, digit by digit. -/
theorem parse?_withPoint {n places : Nat} (hp : 0 < places) (short : Text.digitCount n ≤ 1000)
    (near : places ≤ 1000) :
    parse? (String.ofList (withPoint (Text.digitsOf n) places)) =
      some (finite false n (-(places : Int))) := by
  have hdigits : ∀ c ∈ Text.digitsOf (n / 10 ^ places), c.isDigit = true :=
    fun c hc => Text.isDigit_digitsOf hc
  have hplaces : ∀ c ∈ Text.paddedDigits places (n % 10 ^ places), c.isDigit = true :=
    fun c hc => Text.isDigit_paddedDigits hc
  have hlength : (Text.paddedDigits places (n % 10 ^ places)).length = places :=
    Text.length_paddedDigits (Nat.mod_lt _ (Nat.pow_pos (by decide))) hp
  have hplain : ∀ c ∈ withPoint (Text.digitsOf n) places, IsPlain c :=
    fun c hc => isPlain_withPoint hp hc
  obtain ⟨first, others, hfirst⟩ :=
    List.exists_cons_of_ne_nil (l := Text.digitsOf (n / 10 ^ places)) Nat.toDigits_ne_nil
  have hwhole := takeDigits_append ('.' :: Text.paddedDigits places (n % 10 ^ places))
    hdigits fun c hc => by
      obtain rfl := Option.mem_some.mp hc
      decide
  have hfraction := takeDigits_append [] hplaces nofun
  rw [List.append_nil] at hfraction
  have hsome : ((Text.digitsOf (n / 10 ^ places)).map (·.toNat - 48)).isEmpty = false := by
    rw [hfirst]
    rfl
  have hread : unsigned? false (Text.digitsOf (n / 10 ^ places) ++
      '.' :: Text.paddedDigits places (n % 10 ^ places)) =
        some (finite false n (-(places : Int))) := by
    simp only [unsigned?, hwhole, hfraction, hsome, Text.valueOf_split hp, List.length_map, hlength]
    show (if _ then some (finite false n (0 - (places : Int))) else none) = _
    rw [if_pos (readable_of_short short near), Int.zero_sub]
  rw [withPoint_digitsOf hp] at hplain ⊢
  rw [hfirst, List.cons_append] at hplain hread ⊢
  rw [parse?_of_digit (hdigits first (hfirst ▸ List.mem_cons_self)) hplain, hread]

end Decimal
end TipJar
