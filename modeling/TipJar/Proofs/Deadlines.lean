import Mathlib.Data.List.TakeWhile
import TipJar.Drop.Schedule
import TipJar.Proofs.Digits
import TipJar.Time.Clock

/-! What a request for a duration is answered.

A whole number of units, a unit that is spelled out and a length up to the maximum
give the deadline that is so much later, and everything else is refused, but for one
exception. The length is made before it is compared with the maximum, and a length of
a thousand million days cannot be made: a request for that much is not refused as too
long, it fails with the fault of the length. -/
namespace TipJar

/-! ### Trimmed texts -/

namespace Text
variable {p : Char → Bool} {lead word trail : List Char}

/-- What trimming removes may stand at either end or not. -/
theorem stripWhere_between (hlead : ∀ c ∈ lead, p c = true) (htrail : ∀ c ∈ trail, p c = true) :
    stripWhere p (lead ++ word ++ trail) = stripWhere p word := by
  have hback : ∀ c ∈ trail.reverse, p c = true := fun c hc => htrail c (List.mem_reverse.mp hc)
  unfold stripWhere
  rw [List.append_assoc, List.dropWhile_append_of_pos hlead, List.dropWhile_append]
  split
  · next hnone =>
    rw [List.isEmpty_iff.mp hnone, List.dropWhile_eq_nil_iff.mpr htrail]
  · rw [List.reverse_append, List.dropWhile_append_of_pos hback]

/-- Trimming leaves the middle of a text, and what it takes is of the kind it removes. -/
theorem exists_stripWhere (p : Char → Bool) (s : List Char) : ∃ lead trail,
    s = lead ++ stripWhere p s ++ trail ∧ (∀ c ∈ lead, p c = true) ∧ ∀ c ∈ trail, p c = true := by
  refine ⟨s.takeWhile p, ((s.dropWhile p).reverse.takeWhile p).reverse, ?_, ?_, ?_⟩
  · have hback : stripWhere p s ++ ((s.dropWhile p).reverse.takeWhile p).reverse =
        s.dropWhile p := by
      unfold stripWhere
      rw [← List.reverse_append, List.takeWhile_append_dropWhile, List.reverse_reverse]
    rw [List.append_assoc, hback, List.takeWhile_append_dropWhile]
  · exact fun c hc => List.mem_takeWhile_imp hc
  · exact fun c hc => List.mem_takeWhile_imp (List.mem_reverse.mp hc)

/-- No blank is a capital letter. -/
theorem toLower_of_isBlank {c : Char} (h : isBlank c = true) : c.toLower = c := by
  unfold Char.toLower
  rw [dif_neg]
  intro hcapital
  have hlow : 65 ≤ c.toNat := hcapital.1
  have hhigh : c.toNat ≤ 90 := hcapital.2
  simp only [isBlank, Bool.or_eq_true, Bool.and_eq_true, decide_eq_true_eq, beq_iff_eq] at h
  omega

end Text

/-! ### Units -/

namespace DurationUnit

/-- The length of a unit. -/
def micros : DurationUnit → Nat
  | hours => Duration.microsPerHour
  | minutes => Duration.microsPerMinute

/-- The spellings of a unit. -/
def spellings : DurationUnit → List String
  | hours => ["h", "hr", "hour", "hours"]
  | minutes => ["m", "min", "minute", "minutes"]

/-- A text that spells a unit, with blanks around it, in small letters, capitals or both. -/
def IsSpelled (u : DurationUnit) (s : String) : Prop :=
  ∃ lead word trail, s.toList = lead ++ word ++ trail ∧
    (∀ c ∈ lead, Text.isBlank c = true) ∧ (∀ c ∈ trail, Text.isBlank c = true) ∧
    String.ofList (word.map Char.toLower) ∈ u.spellings

theorem isBlank_of_mem_spellings {u : DurationUnit} {s : String} (h : s ∈ u.spellings) :
    ∀ c ∈ s.toList, Text.isBlank c = false := by
  have hall : (u.spellings.all fun s => s.toList.all fun c => !Text.isBlank c) = true := by
    cases u <;> decide
  intro c hc
  have hword := List.all_eq_true.mp (List.all_eq_true.mp hall s h) c hc
  rwa [Bool.not_eq_true'] at hword

/-- A word that spells a unit holds no blank. -/
theorem isBlank_of_spelled {u : DurationUnit} {word : List Char}
    (h : String.ofList (word.map Char.toLower) ∈ u.spellings) :
    ∀ c ∈ word, Text.isBlank c = false := by
  intro c hc
  by_contra hblank
  rw [Bool.not_eq_false] at hblank
  have hmem : c ∈ (String.ofList (word.map Char.toLower)).toList := by
    rw [String.toList_ofList]
    exact List.mem_map.mpr ⟨c, hc, Text.toLower_of_isBlank hblank⟩
  exact Bool.false_ne_true ((isBlank_of_mem_spellings h c hmem).symm.trans hblank)

theorem ofSpelling?_eq_some_iff_mem {u : DurationUnit} {s : String} :
    ofSpelling? s = some u ↔
      String.ofList ((Text.stripWhere Text.isBlank s.toList).map Char.toLower) ∈ u.spellings := by
  unfold ofSpelling?
  generalize String.ofList ((Text.stripWhere Text.isBlank s.toList).map Char.toLower) = t
  cases u <;> unfold spellings <;> split <;> simp_all

/-- A unit is read from the texts that spell it and from no others. -/
theorem ofSpelling?_eq_some_iff {u : DurationUnit} {s : String} :
    ofSpelling? s = some u ↔ u.IsSpelled s := by
  rw [ofSpelling?_eq_some_iff_mem]
  constructor
  · intro h
    obtain ⟨lead, trail, hs, hlead, htrail⟩ := Text.exists_stripWhere Text.isBlank s.toList
    exact ⟨lead, _, trail, hs, hlead, htrail, h⟩
  · intro h
    obtain ⟨lead, word, trail, hs, hlead, htrail, hword⟩ := h
    rw [hs, Text.stripWhere_between hlead htrail,
      Text.stripWhere_of_none (isBlank_of_spelled hword)]
    exact hword

theorem ofSpelling?_eq_none_iff {s : String} :
    ofSpelling? s = none ↔ ∀ u : DurationUnit, ¬ u.IsSpelled s := by
  rw [Option.eq_none_iff_forall_ne_some]
  exact forall_congr' fun u => not_congr ofSpelling?_eq_some_iff

end DurationUnit

/-! ### Lengths -/

namespace Duration

/-- The first number of days that no length has. -/
def dayBound : Nat := 1000000000

theorem ofMicros_of_lt {micros : Int} (low : -(maxDays * microsPerDay) ≤ micros)
    (high : micros < dayBound * microsPerDay) : ofMicros micros = .ok ⟨micros⟩ := by
  simp only [dayBound, maxDays, show microsPerDay = 86400000000 by decide] at low high ⊢
  unfold ofMicros
  simp only [maxDays, show microsPerDay = 86400000000 by decide]
  rw [if_neg (by omega), if_neg (by omega)]

/-- What goes wrong with a length of that many days. -/
def tooLong (micros : Int) : Error :=
  if 0x80000000 ≤ micros / microsPerDay then .beyondWord
  else .tooManyDays (micros / microsPerDay)

theorem ofMicros_of_le {micros : Int} (h : dayBound * microsPerDay ≤ micros) :
    ofMicros micros = .error (tooLong micros) := by
  have hdays : 1000000000 ≤ micros / (microsPerDay : Int) := by
    rw [Int.le_ediv_iff_mul_le (by decide)]
    exact h
  unfold ofMicros tooLong
  dsimp only
  by_cases hword : 0x80000000 ≤ micros / (microsPerDay : Int)
  · rw [if_pos (.inr hword), if_pos hword]
  · rw [if_neg (by omega), if_pos (.inr (by unfold maxDays; omega)), if_neg hword]

end Duration

theorem Value.duration_int (count : Int) (part : String) (unit : Nat) :
    (Value.scalar (.int count)).duration part unit =
      Checked.ofDuration (Duration.ofMicros (count * unit)) := by
  show Checked.ofDuration (Duration.ofMicros (0 + count * unit)) = _
  rw [Int.zero_add]

namespace Moment

theorem of?_eq_some_iff {wall : Int} {offset : Option Int} {m : Moment} :
    of? wall offset = some m ↔ (m.wall : Int) = wall ∧ m.offset = offset := by
  constructor
  · exact of?_wall
  · intro h
    obtain ⟨rfl, rfl⟩ := h
    unfold of?
    rw [dif_pos ⟨Int.natCast_nonneg _, Int.ofNat_lt.mpr m.wall_lt⟩]
    rfl

theorem isSome_of?_iff {wall : Int} {offset : Option Int} :
    (of? wall offset).isSome ↔ 0 ≤ wall ∧ wall < limit := by
  unfold of?
  split
  · next h => exact iff_of_true rfl h
  · next h => exact iff_of_false Bool.false_ne_true h

end Moment

/-! ### Answers -/

namespace Drop

/-- What a request for a number of units is answered, the longest length being so many hours. Each
answer is given under its own condition, and no two conditions go together. -/
inductive Answered (opened : Moment) (count : Int) (written : String) (hours : Int) :
    Checked Moment → Prop
  | tooShort (short : count < 1) :
    Answered opened count written hours (refuseDuration (.scalar (.int count)) written .tooShort)
  | unknownUnit (least : 1 ≤ count) (unspelled : ∀ u : DurationUnit, ¬ u.IsSpelled written) :
    Answered opened count written hours
      (refuseDuration (.scalar (.int count)) written (.unknownUnit (Text.quoted written)))
  | tooLong (unit : DurationUnit) (least : 1 ≤ count) (spelled : unit.IsSpelled written)
      (long : hours * Duration.microsPerHour < count * unit.micros)
      (made : count * unit.micros < Duration.dayBound * Duration.microsPerDay) :
    Answered opened count written hours
      (refuseDuration (.scalar (.int count)) written (.tooLong (Text.integerText hours)))
  | beyond (unit : DurationUnit) (least : 1 ≤ count) (spelled : unit.IsSpelled written)
      (unmade : Duration.dayBound * Duration.microsPerDay ≤ count * unit.micros) :
    Answered opened count written hours
      (Checked.ofDuration (.error (Duration.tooLong (count * unit.micros))))
  | given (unit : DurationUnit) (deadline : Moment) (least : 1 ≤ count)
      (spelled : unit.IsSpelled written)
      (short : count * unit.micros ≤ hours * Duration.microsPerHour)
      (later : (deadline.wall : Int) = opened.wall + count * unit.micros)
      (zone : deadline.offset = opened.offset) :
    Answered opened count written hours (.ok deadline)

section Answers
variable {opened : Moment} {count : Int} {written : String} {hours : Int} {unit : DurationUnit}

theorem plain_text (written : String) :
    Checked.ofArithmetic (Value.scalar (.text written)).plain = .ok written := rfl

theorem readUnit_text (h : unit.IsSpelled written) :
    readUnit (.scalar (.text written)) = .ok unit := by
  have hspelling := DurationUnit.ofSpelling?_eq_some_iff.mpr h
  unfold readUnit
  dsimp only
  rw [plain_text]
  dsimp only [bind, Except.bind]
  rw [hspelling]

theorem readUnit_unknown (h : ∀ u : DurationUnit, ¬ u.IsSpelled written) :
    readUnit (.scalar (.text written)) =
      .error (.invalid (.unknownUnit (Text.quoted written))) := by
  have hspelling := DurationUnit.ofSpelling?_eq_none_iff.mpr h
  unfold readUnit
  dsimp only
  rw [plain_text]
  dsimp only [bind, Except.bind]
  rw [hspelling]
  rfl

/-- A unit that can be read can be named. -/
theorem exists_unitLabel {named : Value} (h : readUnit named = .ok unit) :
    ∃ label, unitLabel named = .ok label := by
  unfold readUnit at h
  unfold unitLabel
  split at h
  · exact ⟨_, rfl⟩
  · cases hplain : Checked.ofArithmetic _ with
    | ok written => exact ⟨written, rfl⟩
    | error why => rw [hplain] at h; cases h

theorem lengthOf_read {named : Value} (h : readUnit named = .ok unit) :
    lengthOf (.scalar (.int count)) named =
      Checked.ofDuration (Duration.ofMicros (count * unit.micros)) := by
  unfold lengthOf
  rw [h]
  cases unit with
  | hours => exact Value.duration_int count "hours" _
  | minutes => exact Value.duration_int count "minutes" _

theorem lengthOf_int (h : unit.IsSpelled written) :
    lengthOf (.scalar (.int count)) (.scalar (.text written)) =
      Checked.ofDuration (Duration.ofMicros (count * unit.micros)) :=
  lengthOf_read (readUnit_text h)

theorem checkedLength_of_short (longest : Value) (h : count < 1) :
    checkedLength (.scalar (.int count)) (.scalar (.text written)) longest =
      refuseDuration (.scalar (.int count)) written .tooShort := by
  show (if count < 1 then _ else _) = _
  rw [if_pos h]

theorem checkedLength_of_unspelled (longest : Value) (least : 1 ≤ count)
    (h : ∀ u : DurationUnit, ¬ u.IsSpelled written) :
    checkedLength (.scalar (.int count)) (.scalar (.text written)) longest =
      refuseDuration (.scalar (.int count)) written (.unknownUnit (Text.quoted written)) := by
  have hlength : lengthOf (.scalar (.int count)) (.scalar (.text written)) =
      .error (.invalid (.unknownUnit (Text.quoted written))) := by
    unfold lengthOf
    rw [readUnit_unknown h]
    rfl
  show (if count < 1 then _ else _) = _
  rw [if_neg (not_lt.mpr least), hlength]
  rfl

theorem length_nonneg (least : 1 ≤ count) : 0 ≤ count * (unit.micros : Int) :=
  Int.mul_nonneg (Int.le_trans (by decide) least) (Int.natCast_nonneg _)

/-- A length that cannot be made is the fault, whatever the maximum is. -/
theorem checkedLength_of_unmade (longest : Value) (least : 1 ≤ count) (hu : unit.IsSpelled written)
    (h : Duration.dayBound * Duration.microsPerDay ≤ count * unit.micros) :
    checkedLength (.scalar (.int count)) (.scalar (.text written)) longest =
      Checked.ofDuration (.error (Duration.tooLong (count * unit.micros))) := by
  show (if count < 1 then _ else _) = _
  rw [if_neg (not_lt.mpr least), lengthOf_int hu, Duration.ofMicros_of_le h]
  unfold Duration.tooLong
  by_cases hword : 0x80000000 ≤ count * (unit.micros : Int) / (Duration.microsPerDay : Int)
  · rw [if_pos hword]
    rfl
  · rw [if_neg hword]
    rfl

/-- A length that can be made is held against the maximum, which is made only then. -/
theorem checkedLength_of_read {named : Value} (longest : Value) (least : 1 ≤ count)
    (hlabel : unitLabel named = .ok written) (hunit : readUnit named = .ok unit)
    (made : count * unit.micros < Duration.dayBound * Duration.microsPerDay) :
    checkedLength (.scalar (.int count)) named longest = longest.hours >>= fun most =>
      if most.micros < count * unit.micros then do
        refuseDuration (.scalar (.int count)) written
          (.tooLong (← Checked.ofArithmetic longest.plain))
      else return ⟨count * unit.micros⟩ := by
  have hlength : lengthOf (.scalar (.int count)) named = .ok ⟨count * unit.micros⟩ := by
    have hlow : -(Duration.maxDays * Duration.microsPerDay) ≤ count * (unit.micros : Int) :=
      Int.le_trans (by decide) (length_nonneg least)
    rw [lengthOf_read hunit, Duration.ofMicros_of_lt hlow made]
    rfl
  unfold checkedLength
  rw [hlabel]
  show (if count < 1 then _ else _) = _
  rw [if_neg (not_lt.mpr least), hlength]
  rfl

/-- A length that can be made is compared with the maximum. -/
theorem checkedLength_of_made (least : 1 ≤ count) (hu : unit.IsSpelled written)
    (made : count * unit.micros < Duration.dayBound * Duration.microsPerDay)
    (low : -(Duration.maxDays * Duration.microsPerDay) ≤ hours * Duration.microsPerHour)
    (high : hours * Duration.microsPerHour < Duration.dayBound * Duration.microsPerDay) :
    checkedLength (.scalar (.int count)) (.scalar (.text written)) (.scalar (.int hours)) =
      if hours * Duration.microsPerHour < count * unit.micros then
        refuseDuration (.scalar (.int count)) written (.tooLong (Text.integerText hours))
      else .ok ⟨count * unit.micros⟩ := by
  have hlongest : (Value.scalar (.int hours)).hours = .ok ⟨hours * Duration.microsPerHour⟩ := by
    unfold Value.hours
    rw [Value.duration_int, Duration.ofMicros_of_lt low high]
    rfl
  have hlabel : unitLabel (.scalar (.text written)) = .ok written := rfl
  rw [checkedLength_of_read _ least hlabel (readUnit_text hu) made, hlongest]
  show (if hours * Duration.microsPerHour < count * unit.micros then _ else _) = _
  split <;> rfl

end Answers

section Requests
variable {opened : Moment} {count : Int} {written : String} {hours : Int} {answer : Checked Moment}

/-- A length that reaches from a reading of the calendar to another can be made. -/
theorem made_of_isSome {micros : Int} (fits : (opened.add? ⟨micros⟩).isSome) :
    -(Duration.maxDays * Duration.microsPerDay) ≤ micros ∧
      micros < Duration.dayBound * Duration.microsPerDay := by
  obtain ⟨hlow, hhigh⟩ := Moment.isSome_of?_iff.mp fits
  have hwall : opened.wall < Moment.limit := opened.wall_lt
  have hcalendar : (Moment.limit : Int) ≤ Duration.maxDays * Duration.microsPerDay := by decide
  have hbound : Duration.maxDays * Duration.microsPerDay <
      (Duration.dayBound * Duration.microsPerDay : Int) := by decide
  dsimp only at hlow hhigh
  omega

theorem exists_answered (fits : (opened.add? ⟨hours * Duration.microsPerHour⟩).isSome) :
    ∃ answer, Answered opened count written hours answer := by
  by_cases hshort : count < 1
  · exact ⟨_, .tooShort hshort⟩
  have least : 1 ≤ count := not_lt.mp hshort
  by_cases hspelled : ∃ u : DurationUnit, u.IsSpelled written
  case neg => exact ⟨_, .unknownUnit least fun u hu => hspelled ⟨u, hu⟩⟩
  obtain ⟨unit, hunit⟩ := hspelled
  by_cases hmade : count * unit.micros < (Duration.dayBound * Duration.microsPerDay : Int)
  case neg => exact ⟨_, .beyond unit least hunit (not_lt.mp hmade)⟩
  by_cases hlong : hours * Duration.microsPerHour < count * (unit.micros : Int)
  · exact ⟨_, .tooLong unit least hunit hlong hmade⟩
  · have hpos : 0 ≤ count * (unit.micros : Int) := length_nonneg least
    obtain ⟨hlow, hhigh⟩ := Moment.isSome_of?_iff.mp fits
    dsimp only at hlow hhigh
    have hfound : (opened.add? ⟨count * unit.micros⟩).isSome :=
      Moment.isSome_of?_iff.mpr ⟨by dsimp only; omega, by dsimp only; omega⟩
    obtain ⟨deadline, hdeadline⟩ := Option.isSome_iff_exists.mp hfound
    obtain ⟨later, zone⟩ := Moment.of?_wall hdeadline
    exact ⟨_, .given unit deadline least hunit (not_lt.mp hlong) later zone⟩

theorem Answered.deadlineFor_eq (fits : (opened.add? ⟨hours * Duration.microsPerHour⟩).isSome)
    (h : Answered opened count written hours answer) :
    deadlineFor opened (.scalar (.int count)) (.scalar (.text written)) (.scalar (.int hours)) =
      answer := by
  obtain ⟨hlow, hhigh⟩ := made_of_isSome fits
  unfold deadlineFor
  cases h with
  | tooShort short => rw [checkedLength_of_short _ short]; rfl
  | unknownUnit least unspelled => rw [checkedLength_of_unspelled _ least unspelled]; rfl
  | tooLong unit least spelled long made =>
    rw [checkedLength_of_made least spelled made hlow hhigh, if_pos long]
    rfl
  | beyond unit least spelled unmade =>
    rw [checkedLength_of_unmade _ least spelled unmade]
    rfl
  | given unit deadline least spelled short later zone =>
    rw [checkedLength_of_made least spelled (short.trans_lt hhigh) hlow hhigh,
      if_neg (not_lt.mpr short)]
    show Checked.inCalendar (opened.add? ⟨count * unit.micros⟩) = _
    rw [show opened.add? ⟨count * unit.micros⟩ = some deadline from
      Moment.of?_eq_some_iff.mpr ⟨later, zone⟩]
    rfl

/-- Where the longest length stays in the calendar, a request for a duration has exactly one answer:
the deadline, a refusal that says which check fails, or the fault of a length of a thousand million
days or more, which comes before the maximum is looked at. -/
theorem deadlineFor_eq_iff (fits : (opened.add? ⟨hours * Duration.microsPerHour⟩).isSome) :
    deadlineFor opened (.scalar (.int count)) (.scalar (.text written)) (.scalar (.int hours)) =
      answer ↔ Answered opened count written hours answer := by
  constructor
  · intro h
    obtain ⟨given, hgiven⟩ := exists_answered fits
    rw [← h, hgiven.deadlineFor_eq fits]
    exact hgiven
  · exact Answered.deadlineFor_eq fits

/-- A week is the most that is allowed, and still a million million hours are not too long but
beyond what a length can be. -/
theorem deadlineFor_endless :
    (Clock.initial.time.add? ⟨168 * Duration.microsPerHour⟩).isSome ∧
    deadlineFor Clock.initial.time (.scalar (.int 1000000000000)) (.scalar (.text "h"))
      (.scalar (.int 168)) = .error (.beyond .word) := by
  have fits : (Clock.initial.time.add? ⟨168 * Duration.microsPerHour⟩).isSome := by decide
  refine ⟨fits, (deadlineFor_eq_iff fits).mpr ?_⟩
  have spelled : DurationUnit.hours.IsSpelled "h" :=
    ⟨[], ['h'], [], rfl, List.forall_mem_nil _, List.forall_mem_nil _, by decide⟩
  exact .beyond .hours (by decide) spelled (by decide)

end Requests
end Drop
end TipJar
