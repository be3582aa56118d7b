import Mathlib.Data.List.Lex
import TipJar.Ledger.Column
import TipJar.Proofs.Limits
import TipJar.Proofs.Queries

/-! Moments in columns.

A moment may come with any offset, and a column holds what a calendar and a clock show
of it in universal time: a year, a month, a day and a time of day. Between the two lie
all the carries of the calendar, over midnight, the end of a month, a leap day and the
end of a year. What is stored shows the instant nevertheless, so it is read back as the
instant, and comparing what is stored part by part is comparing the instants. -/
namespace TipJar

/-! ### Years and months -/

namespace Calendar

/-- The days before a year, by the spans of 400, 100, 4 and 1 years before it. -/
theorem daysBeforeYear_spans {q h k y : Nat} (hh : h ≤ 3) (hk : k ≤ 24) (hy : y ≤ 3) :
    daysBeforeYear (q * 400 + h * 100 + k * 4 + y + 1) =
      q * 146097 + h * 36524 + k * 1461 + y * 365 := by
  have h4 : (q * 400 + h * 100 + k * 4 + y) / 4 = q * 100 + h * 25 + k := by omega
  have h100 : (q * 400 + h * 100 + k * 4 + y) / 100 = q * 4 + h := by omega
  have h400 : (q * 400 + h * 100 + k * 4 + y) / 400 = q := by omega
  unfold daysBeforeYear
  dsimp only
  rw [Nat.add_sub_cancel, h4, h100, h400]
  omega

/-- The spans that a day lies in. A year has a 366th day only where it ends a span. -/
theorem yearOf_spans (day : Nat) : ∃ q h k y r, h ≤ 3 ∧ k ≤ 24 ∧ y ≤ 3 ∧
    day = q * 146097 + h * 36524 + k * 1461 + y * 365 + r ∧
    yearOf day = q * 400 + h * 100 + k * 4 + y + 1 ∧
    r ≤ 365 ∧ (r = 365 → y = 3 ∧ (k = 24 → h = 3)) := by
  obtain ⟨n, hn⟩ : ∃ n, n = day % 146097 := ⟨_, rfl⟩
  obtain ⟨h, hh⟩ : ∃ h, h = min 3 (n / 36524) := ⟨_, rfl⟩
  obtain ⟨m, hm⟩ : ∃ m, m = n - h * 36524 := ⟨_, rfl⟩
  obtain ⟨y, hy⟩ : ∃ y, y = min 3 (m % 1461 / 365) := ⟨_, rfl⟩
  have hyear : yearOf day = day / 146097 * 400 + h * 100 + m / 1461 * 4 + y + 1 := by
    subst hn hh hm hy
    rfl
  refine ⟨day / 146097, h, m / 1461, y, m % 1461 - y * 365, ?_, ?_, ?_, ?_, hyear, ?_, ?_⟩
  all_goals omega

/-- A day lies in its year. -/
theorem daysBeforeYear_yearOf (day : Nat) :
    daysBeforeYear (yearOf day) ≤ day ∧ day < daysBeforeYear (yearOf day + 1) := by
  obtain ⟨q, h, k, y, r, hh, hk, hy, hday, hyear, hr, hlong⟩ := yearOf_spans day
  rw [hyear, daysBeforeYear_spans hh hk hy]
  refine ⟨by omega, ?_⟩
  have hnext (q' h' k' y' : Nat) (hh' : h' ≤ 3) (hk' : k' ≤ 24) (hy' : y' ≤ 3)
      (hspans : q * 400 + h * 100 + k * 4 + y + 1 = q' * 400 + h' * 100 + k' * 4 + y')
      (hend : day < q' * 146097 + h' * 36524 + k' * 1461 + y' * 365) :
      day < daysBeforeYear (q * 400 + h * 100 + k * 4 + y + 1 + 1) := by
    rwa [hspans, daysBeforeYear_spans hh' hk' hy']
  -- the year after the last one of a span begins the next span
  by_cases hy3 : y < 3
  · exact hnext q h k (y + 1) hh hk hy3 (by omega) (by omega)
  by_cases hk24 : k < 24
  · exact hnext q h (k + 1) 0 hh hk24 (by decide) (by omega) (by omega)
  by_cases hh3 : h < 3
  · exact hnext q (h + 1) 0 0 hh3 (by decide) (by decide) (by omega) (by omega)
  · exact hnext (q + 1) 0 0 0 (by decide) (by decide) (by decide) (by omega) (by omega)

/-- A leap year is a day longer. -/
theorem daysBeforeYear_succ (y : Nat) :
    daysBeforeYear (y + 2) =
      daysBeforeYear (y + 1) + (monthLengths (isLeap (y + 1))).sum := by
  have h4 : (y + 1) / 4 = y / 4 + if (y + 1) % 4 = 0 then 1 else 0 := by split <;> omega
  have h100 : (y + 1) / 100 = y / 100 + if (y + 1) % 100 = 0 then 1 else 0 := by split <;> omega
  have h400 : (y + 1) / 400 = y / 400 + if (y + 1) % 400 = 0 then 1 else 0 := by split <;> omega
  have hfew : y / 100 ≤ y / 4 := Nat.div_le_div_left (by decide) (by decide)
  have hhundred : (y + 1) % 100 = 0 → (y + 1) % 4 = 0 := by omega
  have hspan : (y + 1) % 400 = 0 → (y + 1) % 100 = 0 := by omega
  have hlength : (monthLengths (isLeap (y + 1))).sum = if isLeap (y + 1) then 366 else 365 := by
    cases isLeap (y + 1) <;> rfl
  rw [hlength]
  unfold daysBeforeYear isLeap
  simp only [Nat.add_sub_cancel, show y + 2 - 1 = y + 1 from rfl, h4, h100, h400,
    Bool.and_eq_true, Bool.or_eq_true, beq_iff_eq, bne_iff_ne]
  clear h4 h100 h400
  generalize y / 4 = a at *
  generalize y / 100 = b at *
  generalize y / 400 = c at *
  by_cases h4 : (y + 1) % 4 = 0 <;> by_cases h100 : (y + 1) % 100 = 0 <;>
    by_cases h400 : (y + 1) % 400 = 0 <;> simp [h4, h100, h400] at hhundred hspan ⊢ <;> omega

theorem daysBeforeYear_mono : Monotone daysBeforeYear := by
  refine monotone_nat_of_le_succ fun year => ?_
  cases year with
  | zero => exact le_rfl
  | succ y => exact (Nat.le_add_right ..).trans (daysBeforeYear_succ y).ge

/-- The day of a month that a day of the year is, counted from one like the month. -/
theorem monthAndDay_eq {lengths : List Nat} {rest : Nat} (month : Nat) (h : rest < lengths.sum) :
    ∃ i length day, lengths[i]? = some length ∧ day < length ∧
      rest = (lengths.take i).sum + day ∧
      monthAndDay month lengths rest = (month + i, day + 1) := by
  induction lengths generalizing month rest with
  | nil => exact absurd h (Nat.not_lt_zero _)
  | cons first others ih =>
    unfold monthAndDay
    by_cases hfirst : rest < first
    · exact ⟨0, first, rest, rfl, hfirst, (Nat.zero_add rest).symm, if_pos hfirst⟩
    · rw [List.sum_cons] at h
      obtain ⟨i, length, day, hlength, hday, hrest, heq⟩ :=
        ih (month + 1) (show rest - first < others.sum by omega)
      refine ⟨i + 1, length, day, hlength, hday, ?_, ?_⟩
      · rw [List.take_succ_cons, List.sum_cons]
        omega
      · rw [if_neg hfirst, heq, Nat.add_assoc, Nat.add_comm 1 i]

theorem le_monthAndDay (month : Nat) (lengths : List Nat) (rest : Nat) :
    month ≤ (monthAndDay month lengths rest).1 := by
  induction lengths generalizing month rest with
  | nil => exact le_rfl
  | cons first others ih =>
    unfold monthAndDay
    split
    · exact le_rfl
    · exact (Nat.le_succ month).trans (ih (month + 1) _)

/-- Later days of a year are in later months, or later in the same month. -/
theorem monthAndDay_lt {a b : Nat} (month : Nat) (lengths : List Nat) (h : a < b) :
    (monthAndDay month lengths a).1 < (monthAndDay month lengths b).1 ∨
      (monthAndDay month lengths a).1 = (monthAndDay month lengths b).1 ∧
        (monthAndDay month lengths a).2 < (monthAndDay month lengths b).2 := by
  induction lengths generalizing month a b with
  | nil => exact .inr ⟨rfl, Nat.succ_lt_succ h⟩
  | cons first others ih =>
    unfold monthAndDay
    by_cases hb : b < first
    · rw [if_pos hb, if_pos (h.trans hb)]
      exact .inr ⟨rfl, Nat.succ_lt_succ h⟩
    by_cases ha : a < first
    · rw [if_pos ha, if_neg hb]
      exact .inl (le_monthAndDay (month + 1) others _)
    · rw [if_neg ha, if_neg hb]
      exact ih (month + 1) (by omega)

/-- The day of a date that there is. -/
theorem dayNumber?_eq {year i length d : Nat} (first : 1 ≤ year) (last : year ≤ 9999)
    (hlength : (monthLengths (isLeap year))[i]? = some length) (hd : d < length) :
    dayNumber? year (1 + i) (d + 1) =
      some (daysBeforeYear year + ((monthLengths (isLeap year)).take i).sum + d) := by
  have hmonth : daysBeforeMonth (isLeap year) (1 + i) =
      ((monthLengths (isLeap year)).take i).sum := by
    unfold daysBeforeMonth
    rw [Nat.add_sub_cancel_left, List.sum_eq_foldl]
    rfl
  unfold dayNumber?
  simp only [Nat.add_sub_cancel_left, hlength, hmonth]
  exact if_pos ⟨first, last, Nat.le_add_right 1 i, Nat.le_add_left 1 d, hd⟩

theorem civil_eq (day : Nat) : civil day = (yearOf day,
    monthAndDay 1 (monthLengths (isLeap (yearOf day))) (day - daysBeforeYear (yearOf day))) := rfl

/-- Year, month and day of a day are a date, and that of the day. -/
theorem dayNumber?_civil {day : Nat} (h : day < dayCount) :
    dayNumber? (civil day).1 (civil day).2.1 (civil day).2.2 = some day := by
  obtain ⟨hfrom, huntil⟩ := daysBeforeYear_yearOf day
  obtain ⟨y, hy⟩ : ∃ y, yearOf day = y + 1 := by
    obtain ⟨q, h, k, y, r, -, -, -, -, hyear, -⟩ := yearOf_spans day
    exact ⟨_, hyear⟩
  have hlast : yearOf day ≤ 9999 := by
    by_contra hlate
    have hend : daysBeforeYear 10000 ≤ daysBeforeYear (yearOf day) :=
      daysBeforeYear_mono (by omega)
    have hcount : daysBeforeYear 10000 = dayCount := by decide
    omega
  have hrest : day - daysBeforeYear (yearOf day) < (monthLengths (isLeap (yearOf day))).sum := by
    rw [hy] at hfrom huntil ⊢
    rw [daysBeforeYear_succ] at huntil
    omega
  obtain ⟨i, length, d, hlength, hd, hsum, hmonth⟩ := monthAndDay_eq 1 hrest
  rw [civil_eq, hmonth]
  dsimp only
  rw [dayNumber?_eq (by omega) hlast hlength hd]
  exact congrArg some (by omega)

/-- Later days have later dates: a later year, or the same year and a later month, or the same
month and a later day. -/
theorem civil_lt {a b : Nat} (h : a < b) :
    (civil a).1 < (civil b).1 ∨ (civil a).1 = (civil b).1 ∧
      ((civil a).2.1 < (civil b).2.1 ∨
        (civil a).2.1 = (civil b).2.1 ∧ (civil a).2.2 < (civil b).2.2) := by
  have hyears : yearOf a ≤ yearOf b := by
    by_contra hlater
    have hend : daysBeforeYear (yearOf b + 1) ≤ daysBeforeYear (yearOf a) :=
      daysBeforeYear_mono (by omega)
    have hb := (daysBeforeYear_yearOf b).2
    have ha := (daysBeforeYear_yearOf a).1
    omega
  rw [civil_eq, civil_eq]
  rcases hyears.lt_or_eq with hyear | hyear
  · exact .inl hyear
  · have hfrom := (daysBeforeYear_yearOf a).1
    rw [← hyear]
    exact .inr ⟨rfl, monthAndDay_lt 1 _ (by omega)⟩

end Calendar

/-! ### Readings -/

namespace Moment

/-- What a calendar and a clock show: year, month, day, hour, minute, second and microsecond. -/
def fields (m : Moment) : List Nat :=
  let (year, month, day) := Calendar.civil m.date.day
  let seconds := m.timeOfDay / Duration.microsPerSecond
  [year, month, day, seconds / 3600, seconds / 60 % 60, seconds % 60,
    m.timeOfDay % Duration.microsPerSecond]

/-- The microseconds since the start of year one at which a calendar and a clock show something, if
they ever do. -/
def wallOf? : List Nat → Option Nat
  | [year, month, day, hour, minute, second, micro] =>
    if hour < 24 ∧ minute < 60 ∧ second < 60 ∧ micro < Duration.microsPerSecond then
      (Calendar.dayNumber? year month day).map fun n =>
        n * Duration.microsPerDay + ((hour * 60 + minute) * 60 + second) *
          Duration.microsPerSecond + micro
    else none
  | _ => none

variable {m n u v : Moment}

theorem fields_eq (m : Moment) : m.fields =
    (Calendar.civil m.date.day).1 :: (Calendar.civil m.date.day).2.1 ::
      (Calendar.civil m.date.day).2.2 ::
      [m.timeOfDay / Duration.microsPerSecond / 3600,
        m.timeOfDay / Duration.microsPerSecond / 60 % 60,
        m.timeOfDay / Duration.microsPerSecond % 60, m.timeOfDay % Duration.microsPerSecond] := by
  unfold fields
  generalize Calendar.civil m.date.day = civil
  rfl

/-- What a calendar and a clock show says which reading it is. -/
theorem wallOf?_fields (m : Moment) : wallOf? m.fields = some m.wall := by
  have hsplit : m.wall = m.date.day * Duration.microsPerDay + m.timeOfDay :=
    (Nat.div_add_mod' ..).symm
  have hday : m.timeOfDay < 86400000000 := Nat.mod_lt _ (by decide)
  have hsecond : m.timeOfDay = m.timeOfDay / 1000000 * 1000000 + m.timeOfDay % 1000000 :=
    (Nat.div_add_mod' ..).symm
  unfold fields wallOf?
  dsimp only
  rw [Calendar.dayNumber?_civil m.date.day_lt]
  unfold Duration.microsPerSecond
  rw [if_pos (by omega), Option.map_some, hsplit]
  refine congrArg some ?_
  omega

/-- Later on a day is later part by part. -/
theorem clock_lt {a b : Nat} (h : a < b) :
    [a / Duration.microsPerSecond / 3600, a / Duration.microsPerSecond / 60 % 60,
        a / Duration.microsPerSecond % 60, a % Duration.microsPerSecond] <
      [b / Duration.microsPerSecond / 3600, b / Duration.microsPerSecond / 60 % 60,
        b / Duration.microsPerSecond % 60, b % Duration.microsPerSecond] := by
  unfold Duration.microsPerSecond
  simp only [List.cons_lt_cons_iff]
  omega

/-- Later readings are later part by part. -/
theorem fields_lt (h : m.wall < n.wall) : m.fields < n.fields := by
  have hm : m.wall = m.date.day * Duration.microsPerDay + m.timeOfDay := (Nat.div_add_mod' ..).symm
  have hn : n.wall = n.date.day * Duration.microsPerDay + n.timeOfDay := (Nat.div_add_mod' ..).symm
  have hdays : m.date.day ≤ n.date.day := Nat.div_le_div_right h.le
  rw [fields_eq, fields_eq]
  rcases hdays.lt_or_eq with hday | hday
  · simp only [List.cons_lt_cons_iff]
    rcases Calendar.civil_lt hday with hyear | ⟨hyear, hmonth | ⟨hmonth, hlater⟩⟩
    · exact .inl hyear
    · exact .inr ⟨hyear, .inl hmonth⟩
    · exact .inr ⟨hyear, .inr ⟨hmonth, .inl hlater⟩⟩
  · have hclock : m.timeOfDay < n.timeOfDay := by
      rw [hday] at hm
      omega
    rw [hday]
    simp only [List.cons_lt_cons_self]
    exact clock_lt hclock

theorem fields_congr (h : m.wall = n.wall) : m.fields = n.fields := by
  have hdate : m.date.day = n.date.day := congrArg (· / Duration.microsPerDay) h
  have htime : m.timeOfDay = n.timeOfDay := congrArg (· % Duration.microsPerDay) h
  rw [fields_eq, fields_eq, hdate, htime]

/-- Readings compare as what a calendar and a clock show of them. -/
theorem fields_lt_iff : m.fields < n.fields ↔ m.wall < n.wall := by
  refine ⟨fun h => ?_, fields_lt⟩
  by_contra hnot
  rcases (not_lt.mp hnot).lt_or_eq with hless | heq
  · exact lt_asymm h (fields_lt hless)
  · rw [fields_congr heq.symm] at h
    exact lt_irrefl _ h

theorem fields_inj : m.fields = n.fields ↔ m.wall = n.wall := by
  refine ⟨fun h => ?_, fields_congr⟩
  have hread := wallOf?_fields m
  rw [h, wallOf?_fields] at hread
  exact (Option.some.inj hread).symm

theorem noLater_naive (u v : Moment) :
    u.naive.noLater v.naive = .ok (decide (u.wall ≤ v.wall)) := by
  unfold noLater
  rw [if_pos (show u.naive.isNaive = v.naive.isNaive from rfl)]
  unfold instant naive
  simp

/-! ### Columns -/

/-- Whether a reading has an offset and falls into the years 1 to 9999 in universal time. -/
structure IsOfYears (m : Moment) : Prop where
  aware : m.isNaive = false
  since : (Calendar.daysBeforeYear 1 * Duration.microsPerDay : Nat) ≤ m.instant
  before : m.instant < (Calendar.daysBeforeYear 10000 * Duration.microsPerDay : Nat)

theorem IsOfYears.isStoredAs (h : m.IsOfYears) : ∃ utc, m.IsStoredAs utc := by
  have hfirst : Calendar.daysBeforeYear 1 * Duration.microsPerDay = 0 := by decide
  have hlast : Calendar.daysBeforeYear 10000 * Duration.microsPerDay = limit := by decide
  have hsince := h.since
  have hbefore := h.before
  exact (exists_isStoredAs_iff h.aware).mpr (by omega)

end Moment

namespace Ledger.Column
variable {m n u v : Moment}

/-- What is stored of a moment is the reading in universal time, and that is what is loaded. -/
theorem store_load (h : m.IsStoredAs u) :
    storeMoment (.moment m) = .ok (.moment u.naive) ∧
      loadMoment (.moment u.naive) = .ok (.moment u) := by
  obtain ⟨aware, hutc⟩ := h
  constructor
  · show (if m.isNaive then _ else _) = _
    rw [aware, hutc]
    rfl
  · have hoffset : u = { u.naive with offset := some 0 } := by
      have := (Moment.of?_wall hutc).2
      unfold Moment.naive
      rw [← this]
    show Except.ok (Value.moment { u.naive with offset := some 0 }) = _
    rw [← hoffset]

theorem storeMoment_naive (h : m.isNaive) :
    storeMoment (.moment m) = .error (.invalid (.naiveMoment m.shown)) := if_pos h

/-- How a moment goes into a column and comes out again: a reading without an offset stands for it,
which shows its instant, and the same instant is loaded, in universal time. -/
structure Keeps (m stored loaded : Moment) : Prop where
  stores : storeMoment (.moment m) = .ok (.moment stored)
  bare : stored.isNaive = true
  shows : (Moment.wallOf? stored.fields).map Nat.cast = some m.instant
  loads : loadMoment (.moment stored) = .ok (.moment loaded)
  instant : loaded.instant = m.instant
  offset : loaded.offset = some 0

theorem keeps_of_isStoredAs (h : m.IsStoredAs u) : Keeps m u.naive u := by
  obtain ⟨hstore, hload⟩ := store_load h
  refine ⟨hstore, rfl, ?_, hload, h.instant, (Moment.of?_wall h.2).2⟩
  rw [Moment.wallOf?_fields]
  exact congrArg some h.wall

theorem Keeps.wall {stored loaded : Moment} (h : Keeps m stored loaded) :
    (stored.wall : Int) = m.instant := by
  have hshows := h.shows
  rw [Moment.wallOf?_fields] at hshows
  exact Option.some.inj hshows

/-- Moments with an offset go through columns and keep their instants. What is stored of them
compares as the instants do, read off a calendar and a clock or as readings, whatever the offsets
were; and no reading without an offset gets into a column. -/
theorem timestamps_keep_instants (hm : m.IsOfYears) (hn : n.IsOfYears) :
    (∃ u back v back', Keeps m u back ∧ Keeps n v back' ∧
      (u.fields < v.fields ↔ m.instant < n.instant) ∧
      (u.fields = v.fields ↔ m.instant = n.instant) ∧
      u.noLater v = .ok (decide (m.instant ≤ n.instant))) ∧
    ∀ bare : Moment, bare.offset = none →
      storeMoment (.moment bare) = .error (.invalid (.naiveMoment bare.shown)) := by
  obtain ⟨u, hu⟩ := hm.isStoredAs
  obtain ⟨v, hv⟩ := hn.isStoredAs
  have hless : u.wall < v.wall ↔ m.instant < n.instant := by
    rw [← hu.wall, ← hv.wall, Int.ofNat_lt]
  have hsame : u.wall = v.wall ↔ m.instant = n.instant := by
    rw [← hu.wall, ← hv.wall, Int.ofNat_inj]
  have hnoLater : u.naive.noLater v.naive = .ok (decide (m.instant ≤ n.instant)) := by
    rw [Moment.noLater_naive, ← hu.wall, ← hv.wall]
    simp only [Int.ofNat_le]
  refine ⟨⟨u.naive, u, v.naive, v, keeps_of_isStoredAs hu, keeps_of_isStoredAs hv,
    Moment.fields_lt_iff.trans hless, Moment.fields_inj.trans hsame, hnoLater⟩,
    fun bare hbare => ?_⟩
  refine storeMoment_naive ?_
  unfold Moment.isNaive
  rw [hbare]
  rfl

/-- Midnight before the first of March 2024, a microsecond ahead of universal time. -/
def leapNight : Moment := ⟨738945 * Duration.microsPerDay, by decide, some 1⟩

/-- The turn of the year 2023, almost a day behind universal time. -/
def newYear : Moment := ⟨738885 * Duration.microsPerDay, by decide, some (-86399999999)⟩

theorem leapNight_kept : leapNight.IsOfYears ∧ newYear.IsOfYears ∧
    ∃ u back v back', Keeps leapNight u back ∧ Keeps newYear v back' ∧
      u.fields = [2024, 2, 29, 23, 59, 59, 999999] ∧ v.fields = [2024, 1, 1, 23, 59, 59, 999999] ∧
      v.fields < u.fields := by
  have hleap : leapNight.IsOfYears := ⟨rfl, by decide, by decide⟩
  have hnew : newYear.IsOfYears := ⟨rfl, by decide, by decide⟩
  obtain ⟨⟨v, back', u, back, hv, hu, horder, -⟩, -⟩ := timestamps_keep_instants hnew hleap
  have hread {m stored loaded : Moment} (h : Keeps m stored loaded) (w : Nat)
      (hw : w < Calendar.dayCount * Duration.microsPerDay) (hm : m.instant = w) :
      stored.fields = (⟨w, hw, none⟩ : Moment).fields :=
    Moment.fields_inj.mpr (Int.ofNat_inj.mp (h.wall.trans hm))
  have hu' := hread hu (738945 * Duration.microsPerDay - 1) (by decide) (by decide)
  have hv' := hread hv (738886 * Duration.microsPerDay - 1) (by decide) (by decide)
  exact ⟨hleap, hnew, u, back, v, back', hu, hv, hu'.trans (by decide), hv'.trans (by decide),
    horder.mpr (by decide)⟩

end Ledger.Column
end TipJar
