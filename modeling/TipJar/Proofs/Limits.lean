import TipJar.Proofs.Announcements
import TipJar.Proofs.Passes
import TipJar.Proofs.Readings
import TipJar.Wiring

/-! What large limits do.

Two limits of a configuration become lengths of time only when they are used: a sweep
looks back by one of them from its start, and a request for a drop is measured against
the other. A configuration asks of both only that they are positive. So a limit can be
too large for a length of time, and the first can reach back beyond the calendar. Then it
is not the limit that is reported: every sweep fails before it has looked at a drop, and
every request is turned down with a fault of arithmetic. How large a limit has to be for
that is said here exactly. -/
namespace TipJar
open Ledger

/-! ### Moments of our time -/

namespace Moment
variable {m utc : Moment} {length : Int}

/-- What a clock shows from the year 2000 to the year 3000, its offset less than a day. -/
structure IsCurrent (m : Moment) : Prop where
  aware : ∃ offset : Int, m.offset = some offset ∧ offset.natAbs < Duration.microsPerDay
  since : Calendar.daysBeforeYear 2000 * Duration.microsPerDay ≤ m.wall
  before : m.wall < Calendar.daysBeforeYear 3001 * Duration.microsPerDay

theorem IsCurrent.isNaive (h : m.IsCurrent) : m.isNaive = false := by
  obtain ⟨offset, hoffset, -⟩ := h.aware
  unfold Moment.isNaive
  rw [hoffset]
  rfl

/-- An instant is less than a day away from its reading. -/
theorem IsCurrent.instant (h : m.IsCurrent) :
    (m.wall : Int) - Duration.microsPerDay < m.instant ∧
      m.instant < m.wall + Duration.microsPerDay := by
  obtain ⟨offset, hoffset, hday⟩ := h.aware
  unfold Moment.instant
  rw [hoffset, Option.getD_some]
  omega

theorem IsCurrent.inCalendar (h : m.IsCurrent) : 0 ≤ m.instant ∧ m.instant < limit := by
  obtain ⟨hlow, hhigh⟩ := h.instant
  have hsince := h.since
  have hbefore := h.before
  have hfirst : Duration.microsPerDay ≤ Calendar.daysBeforeYear 2000 * Duration.microsPerDay := by
    decide
  have hlast : Calendar.daysBeforeYear 3001 * Duration.microsPerDay + Duration.microsPerDay ≤
      limit := by decide
  omega

/-- What can be read in universal time can be stored, and nothing else can. -/
theorem exists_isStoredAs_iff (aware : m.isNaive = false) :
    (∃ utc, m.IsStoredAs utc) ↔ 0 ≤ m.instant ∧ m.instant < limit := by
  unfold IsStoredAs
  simp only [aware, true_and]
  exact Option.isSome_iff_exists.symm.trans isSome_of?_iff

/-- Whether the moment so long before another is in the calendar, as it is read there and in
universal time. -/
structure Reaches (m : Moment) (length : Int) : Prop where
  wall : length ≤ m.wall
  instant : length ≤ m.instant

theorem isSome_sub?_iff (positive : 0 ≤ length) : (m.sub? ⟨length⟩).isSome ↔ length ≤ m.wall := by
  have hwall : m.wall < limit := m.wall_lt
  refine isSome_of?_iff.trans ?_
  show 0 ≤ (m.wall : Int) - length ∧ (m.wall : Int) - length < limit ↔ _
  omega

theorem instant_of_sub? {cutoff : Moment} (h : m.sub? ⟨length⟩ = some cutoff) :
    cutoff.instant = m.instant - length ∧ cutoff.isNaive = m.isNaive := by
  obtain ⟨hwall, hoffset⟩ := of?_wall h
  unfold Moment.instant Moment.isNaive
  rw [hwall, hoffset]
  exact ⟨sub_right_comm _ _ _, rfl⟩

end Moment

/-! ### Looking back -/

/-- A whole number of units is a length of time if it is not too much for one. -/
theorem Value.duration_of_nonneg {count : Int} (nonneg : 0 ≤ count) (part : String) (unit : Nat) :
    count * unit < Duration.dayBound * Duration.microsPerDay ∧
        (Value.scalar (.int count)).duration part unit = .ok ⟨count * unit⟩ ∨
      Duration.dayBound * Duration.microsPerDay ≤ count * unit ∧
        (Value.scalar (.int count)).duration part unit =
          .error (.ofDuration (Duration.tooLong (count * unit))) := by
  rw [Value.duration_int]
  by_cases made : count * unit < (Duration.dayBound * Duration.microsPerDay : Int)
  · have hlow : -(Duration.maxDays * Duration.microsPerDay) ≤ count * unit :=
      Int.le_trans (by decide) (Int.mul_nonneg nonneg (Int.natCast_nonneg _))
    rw [Duration.ofMicros_of_lt hlow made]
    exact .inl ⟨made, rfl⟩
  · rw [Duration.ofMicros_of_le (Int.not_lt.mp made)]
    exact .inr ⟨Int.not_lt.mp made, rfl⟩

namespace Ledger
variable {m : Moment} {s : Store} {seconds length : Int}

/-- Why nothing can be looked for so long before a moment. -/
inductive Unreached (m : Moment) (length : Int) : Fault → Prop
  | unmade (huge : Duration.dayBound * Duration.microsPerDay ≤ length) :
      Unreached m length (.ofDuration (Duration.tooLong length))
  | early (made : length < Duration.dayBound * Duration.microsPerDay) (early : m.wall < length) :
      Unreached m length (.beyond .date)
  | unwritable (read : length ≤ m.wall) (early : m.instant < length) :
      Unreached m length (.store .unwritable)

/-- What comes once the length is made fails only where the calendar does not reach so far back. -/
theorem cutoff_failsOnly (current : m.IsCurrent) (nonneg : 0 ≤ length)
    (made : length < Duration.dayBound * Duration.microsPerDay) :
    (do
      let cutoff ← Work.check (Checked.inCalendar (m.sub? ⟨length⟩))
      let cutoff ← Work.stored cutoff
      Work.read (·.stalled cutoff)).FailsOnly s (Unreached m length) := by
  refine (Work.failsOnly_check fun why hwhy => ?_).bind fun desk cutoff mid hs hcutoff => ?_
  · obtain ⟨hnone, rfl⟩ := Checked.inCalendar_error.mp hwhy
    refine .early made (Int.not_le.mp fun hread => ?_)
    have hsome := (Moment.isSome_sub?_iff nonneg).mpr hread
    rw [hnone] at hsome
    cases hsome
  · obtain ⟨hinside, rfl⟩ := Work.gives_check.mp hcutoff
    have hsub := Checked.inCalendar_ok.mp hinside
    have hread := (Moment.isSome_sub?_iff nonneg).mp (Option.isSome_iff_exists.mpr ⟨_, hsub⟩)
    obtain ⟨hinstant, haware⟩ := Moment.instant_of_sub? hsub
    have hcalendar := current.inCalendar
    refine ⟨s, hs, Work.FailsOnly.ask ?_ Work.reads_stored fun _ => Work.failsOnly_read⟩
    by_cases early : m.instant < length
    · exact Work.failsOnly_stored (.unwritable hread early)
    · obtain ⟨utc, hutc⟩ := (Moment.exists_isStoredAs_iff (haware.trans current.isNaive)).mpr
        (by omega)
      exact Work.failsOnly_of_gives fun desk _ => ⟨utc, desk, Work.gives_stored.mpr ⟨hutc, rfl⟩⟩

/-- Looking so many seconds back from a moment fails only where the calendar does not reach so far
back. -/
theorem findStalled_failsOnly (current : m.IsCurrent) (nonneg : 0 ≤ seconds) :
    (findStalled m (.scalar (.int seconds))).FailsOnly s
      (Unreached m (seconds * Duration.microsPerSecond)) := by
  have hlength : 0 ≤ seconds * (Duration.microsPerSecond : Int) :=
    Int.mul_nonneg nonneg (Int.natCast_nonneg _)
  have hmaking := Value.duration_of_nonneg nonneg "seconds" Duration.microsPerSecond
  refine (Work.failsOnly_check fun why hwhy => ?_).bind fun desk d mid hs hd => ?_
  · obtain ⟨-, hmade⟩ | ⟨huge, hunmade⟩ := hmaking
    · cases hmade.symm.trans hwhy
    · exact Except.error.inj (hunmade.symm.trans hwhy) ▸ .unmade huge
  · obtain ⟨hseconds, rfl⟩ := Work.gives_check.mp hd
    obtain ⟨made, hmade⟩ | ⟨-, hunmade⟩ := hmaking
    · obtain rfl := Except.ok.inj (hmade.symm.trans hseconds)
      exact ⟨s, hs, cutoff_failsOnly current hlength made⟩
    · cases hunmade.symm.trans hseconds

/-- What can be looked for so many seconds before a moment is in the calendar. -/
theorem reaches_of_findStalled {desk after : Desk} {stalled : List Drop} (nonneg : 0 ≤ seconds)
    (h : (findStalled m (.scalar (.int seconds))).Gives desk stalled after) :
    m.Reaches (seconds * Duration.microsPerSecond) := by
  have hlength : 0 ≤ seconds * (Duration.microsPerSecond : Int) :=
    Int.mul_nonneg nonneg (Int.natCast_nonneg _)
  obtain ⟨d, cutoff, utc, t, hd, hcutoff, hutc, -⟩ := findStalled_gives.mp h
  obtain ⟨-, hmade⟩ | ⟨-, hunmade⟩ :=
    Value.duration_of_nonneg nonneg "seconds" Duration.microsPerSecond
  · obtain rfl := Except.ok.inj (hd.symm.trans hmade)
    have hsub := Checked.inCalendar_ok.mp hcutoff
    have hinstant := (Moment.instant_of_sub? hsub).1
    have hcalendar := (Moment.exists_isStoredAs_iff hutc.1).mp ⟨utc, hutc⟩
    exact ⟨(Moment.isSome_sub?_iff hlength).mp (Option.isSome_iff_exists.mpr ⟨cutoff, hsub⟩),
      by omega⟩
  · cases hd.symm.trans hunmade

/-- Failing what was interrupted fails itself only where the calendar does not reach so far back. -/
theorem failStalled_failsOnly (distinct : s.IdsDiffer) (current : m.IsCurrent)
    (nonneg : 0 ≤ seconds) :
    (failStalled m (.scalar (.int seconds))).FailsOnly s
      (Unreached m (seconds * Duration.microsPerSecond)) := by
  obtain ⟨utc, timed⟩ := (Moment.exists_isStoredAs_iff current.isNaive).mpr current.inCalendar
  by_cases hfound : ∃ desk stalled mid,
      (findStalled m (.scalar (.int seconds))).Gives desk stalled mid
  · -- What is found can be failed: where the look succeeds, the whole does.
    obtain ⟨desk, stalled, mid, hfound⟩ := hfound
    obtain ⟨d, cutoff, limit, _, hd, hcutoff, hlimit, -⟩ := findStalled_gives.mp hfound
    refine Work.failsOnly_of_gives fun desk hs => ?_
    obtain ⟨failed, after, -, hgives, -⟩ := failStalled_gives distinct hs hd
      (Checked.inCalendar_ok.mp hcutoff) hlimit timed
    exact ⟨failed, after, hgives⟩
  · exact (findStalled_failsOnly current nonneg).bind fun desk stalled mid _ h =>
      absurd ⟨desk, stalled, mid, h⟩ hfound

end Ledger

/-! ### Sweeps -/

namespace Config
variable {c : Config} {W : World} {σ τ : State} {acts : List Act}

/-- How far back a sweep looks for interrupted settlements. -/
def lookBack (c : Config) : Int := c.scheduler.stalledAfter * Duration.microsPerSecond

/-- The operation with which a sweep begins. -/
def firstOperation : String := "fail_stalled_reactdrops"

/-- How a sweep begins at a moment. It gets past what was interrupted if the limit does not go back
beyond the calendar. If it does, the sweep is over before it has begun, and so it is if the store
loses its first unit of work, as it does if the cutoff is none in universal time. -/
inductive SweepBegins (c : Config) (W : World) (now : Moment) :
    List Act → Checked Drop.Sweep → Prop
  | past {before after : State} {rest : List Act} {r : Checked Drop.Sweep}
      (reaches : now.Reaches c.lookBack) :
      SweepBegins c W now (.kept ⟨firstOperation, before, after⟩ :: rest) r
  | unmade (huge : Duration.dayBound * Duration.microsPerDay ≤ c.lookBack) :
      SweepBegins c W now [] (.error (.ofDuration (Duration.tooLong c.lookBack)))
  | early (made : c.lookBack < Duration.dayBound * Duration.microsPerDay)
      (early : now.wall < c.lookBack) :
      SweepBegins c W now [] (.error (.beyond .date))
  | lost (loses : W.Loses firstOperation) (cause : StoreFault) :
      SweepBegins c W now [] (.error (.refused (.unsaved firstOperation cause)))

theorem sweep_begins (positive : 0 < c.scheduler.stalledAfter)
    (current : ∀ now, W _ (.chore .now) now → now.IsCurrent) (h : σ.Reached)
    {r : Checked Drop.Sweep} (goes : (Wiring.of c).sweeper.sweep.Goes W State.Run σ acts r τ) :
    ∃ now, W _ (.chore .now) now ∧ c.SweepBegins W now acts r := by
  obtain ⟨begun, now, before, hnow, hstalled⟩ := (Program.goes_asked rfl).mp goes
  refine ⟨now, hnow, ?_⟩
  have nonneg := Int.le_of_lt positive
  rcases hstalled.needed with ⟨why, rfl, meanwhile, hworld, hundone, rfl⟩ |
    ⟨ready, interrupted, μ, rest, meanwhile, hfailed, -, rfl⟩
  · have reached := h.run (before.trans meanwhile)
    rcases hundone.faults
        (failStalled_failsOnly reached.idsDiffer (current now hnow) nonneg) with
      ⟨cause, rfl⟩ | ⟨unreached, hkind⟩
    · exact .lost ⟨_, _, cause, hworld⟩ cause
    · cases unreached with
      | unmade huge => exact .unmade huge
      | early made early => exact .early made early
      | unwritable => exact absurd rfl (hkind _)
  · obtain ⟨_, desk, after, -, hgives, -⟩ := hfailed
    obtain ⟨_, _, hfound, -⟩ := Work.gives_bind.mp hgives
    exact .past (reaches_of_findStalled nonneg hfound)

/-! ### Deadlines -/

/-- The longest a drop may last. -/
def longest (c : Config) : Int := c.drops.maxHours * Duration.microsPerHour

/-- What a request for a duration is answered that is no longer than the longest one and than a
week. The deadline is granted if the longest duration is a length of time. If it is none, that is
the fault, however short the duration is that was asked for. -/
inductive Dates (c : Config) (opened : Moment) (n : Nat) (unit : Value) (u : DurationUnit) :
    Checked Moment → Prop
  | granted {deadline : Moment} (made : c.longest < Duration.dayBound * Duration.microsPerDay)
      (grants : Drop.Grants opened (.int n) unit deadline n u) :
      Dates c opened n unit u (.ok deadline)
  | unmade (huge : Duration.dayBound * Duration.microsPerDay ≤ c.longest) :
      Dates c opened n unit u (.error (.ofDuration (Duration.tooLong c.longest)))

section Deadlines
variable {opened : Moment} {n : Nat} {unit : Value} {u : DurationUnit}

/-- A week after a moment of our time is in the calendar. -/
theorem exists_deadline (current : opened.IsCurrent)
    (week : n * u.micros ≤ 7 * Duration.microsPerDay) :
    ∃ deadline, opened.add? ⟨n * u.micros⟩ = some deadline := by
  have hbefore := current.before
  have hlast : Calendar.daysBeforeYear 3001 * Duration.microsPerDay + 7 * Duration.microsPerDay ≤
      Moment.limit := by decide
  have hlater : opened.wall + n * u.micros < Moment.limit := by omega
  refine Option.isSome_iff_exists.mp (Moment.isSome_of?_iff.mpr ⟨?_, ?_⟩)
  · show 0 ≤ (opened.wall : Int) + n * u.micros
    exact_mod_cast Nat.zero_le _
  · show (opened.wall : Int) + n * u.micros < Moment.limit
    exact_mod_cast hlater

theorem deadline_dates (current : opened.IsCurrent) (positive : 0 < c.drops.maxHours)
    (read : Drop.readUnit unit = .ok u) (least : 1 ≤ n) (within : n * u.micros ≤ c.longest)
    (week : n * u.micros ≤ 7 * Duration.microsPerDay) :
    c.Dates opened n unit u
      (Drop.deadlineFor opened (.int n) unit (.int (Wiring.of c).tipping.maxHours)) := by
  have hmade : (n : Int) * u.micros < Duration.dayBound * Duration.microsPerDay := by
    have hweek : 7 * Duration.microsPerDay < Duration.dayBound * Duration.microsPerDay := by decide
    exact_mod_cast Nat.lt_of_le_of_lt week hweek
  obtain ⟨label, hlabel⟩ := Drop.exists_unitLabel read
  have hlength := Drop.checkedLength_of_read (.int c.drops.maxHours) (Int.ofNat_le.mpr least) hlabel
    read hmade
  obtain ⟨made, hhours⟩ | ⟨huge, hhours⟩ :=
    Value.duration_of_nonneg (Int.le_of_lt positive) "hours" Duration.microsPerHour
  · obtain ⟨deadline, hdeadline⟩ := exists_deadline (u := u) current week
    obtain ⟨hwall, zone⟩ := Moment.of?_wall hdeadline
    have later : (deadline.wall : Int) = opened.wall + n * u.micros := hwall
    have hshort : Drop.checkedLength (.int n) unit (.int c.drops.maxHours) =
        .ok ⟨n * u.micros⟩ := by
      refine hlength.trans (Checked.bind_ok.mpr ⟨_, hhours, ?_⟩)
      exact if_neg (Int.not_lt.mpr within)
    have hdated : Drop.deadlineFor opened (.int n) unit (.int (Wiring.of c).tipping.maxHours) =
        .ok deadline :=
      Checked.bind_ok.mpr ⟨_, hshort, Checked.inCalendar_ok.mpr hdeadline⟩
    rw [hdated]
    exact .granted made ⟨rfl, least, read, by exact_mod_cast later, zone⟩
  · have hunmade : Drop.checkedLength (.int n) unit (.int c.drops.maxHours) =
        .error (.ofDuration (Duration.tooLong c.longest)) :=
      hlength.trans (Checked.bind_error.mpr (.inl hhours))
    have hdated : Drop.deadlineFor opened (.int n) unit (.int (Wiring.of c).tipping.maxHours) =
        .error (.ofDuration (Duration.tooLong c.longest)) :=
      Checked.bind_error.mpr (.inl hunmade)
    rw [hdated]
    exact .unmade huge

/-- Where the longest duration is no length of time, nothing that is asked for has a length. -/
theorem checkedLength_unmade {count unit : Value} {length : Duration}
    (positive : 0 < c.drops.maxHours)
    (huge : Duration.dayBound * Duration.microsPerDay ≤ c.longest) :
    Drop.checkedLength count unit (.int c.drops.maxHours) ≠ .ok length := by
  intro h
  have hunmade : (Value.scalar (.int c.drops.maxHours)).hours =
      .error (.ofDuration (Duration.tooLong c.longest)) := by
    obtain ⟨made, -⟩ | ⟨-, hhours⟩ :=
      Value.duration_of_nonneg (Int.le_of_lt positive) "hours" Duration.microsPerHour
    · exact absurd huge (Int.not_le.mpr made)
    · exact hhours
  obtain ⟨label, -, h⟩ := Checked.bind_ok.mp h
  split at h
  case h_2 => cases h
  case h_1 =>
    split at h
    · cases h
    dsimp only at h
    split at h
    · obtain ⟨_, hnever, -⟩ := Checked.bind_ok.mp h
      cases hnever
    obtain ⟨_, -, h⟩ := Checked.bind_ok.mp h
    obtain ⟨_, hnever, -⟩ := Checked.bind_ok.mp h
    cases hnever.symm.trans hunmade

/-- No drop is started under a longest duration that is no length of time. -/
theorem starts_nothing {W : World} {σ τ : State} {own : List Kept} {author channel token : String}
    {amount : Amount} {duration unit : Value} {started : DropStarted}
    (positive : 0 < c.drops.maxHours)
    (huge : Duration.dayBound * Duration.microsPerDay ≤ c.longest) :
    ¬((Wiring.of c).tipping.startDrop author channel token amount duration unit).Plays W σ own
      (.ok started) τ := by
  intro play
  obtain ⟨_, _, _, -, hrest⟩ := play.asked rfl
  obtain ⟨_, _, -, hbody, -⟩ := hrest.within
  obtain ⟨_, _, _, _, -, hbody, -⟩ := hbody.split
  obtain ⟨_, _, _, _, -, hbody, -⟩ := hbody.split
  obtain ⟨openedAt, _, _, _, -, hbody, -⟩ := hbody.split
  obtain ⟨deadline, _, _, _, ⟨-, hdeadline, -⟩, -⟩ := hbody.split
  obtain ⟨_, hlength, -⟩ := Checked.bind_ok.mp hdeadline
  exact checkedLength_unmade positive huge hlength

end Deadlines

/-! ### How large a limit has to be -/

/-- What the limits of a configuration do in our time, and how large they have to be to do harm. -/
structure LimitsDecide (c : Config) : Prop where
  sweeps : ∀ {W : World} {σ τ : State} {acts : List Act} {r : Checked Drop.Sweep},
    (∀ now, W _ (.chore .now) now → now.IsCurrent) → σ.Reached →
      (Wiring.of c).sweeper.sweep.Goes W State.Run σ acts r τ →
        ∃ now, W _ (.chore .now) now ∧ c.SweepBegins W now acts r
  deadlines : ∀ {opened : Moment} {n : Nat} {unit : Value} {u : DurationUnit}, opened.IsCurrent →
    Drop.readUnit unit = .ok u → 1 ≤ n → n * u.micros ≤ c.longest →
      n * u.micros ≤ 7 * Duration.microsPerDay →
        c.Dates opened n unit u
          (Drop.deadlineFor opened (.int n) unit (.int (Wiring.of c).tipping.maxHours))
  starts : Duration.dayBound * Duration.microsPerDay ≤ c.longest →
    ∀ {W : World} {σ τ : State} {own : List Kept} {author channel token : String}
      {amount : Amount} {duration unit : Value} {started : DropStarted},
      ¬((Wiring.of c).tipping.startDrop author channel token amount duration unit).Plays W σ own
        (.ok started) τ
  /-- Up to so many seconds every sweep of our time gets past what was interrupted. -/
  harmless : c.scheduler.stalledAfter ≤ 63082195200 →
    ∀ now : Moment, now.IsCurrent → now.Reaches c.lookBack
  /-- From so many seconds on no sweep of our time does. -/
  harmful : 94670812800 ≤ c.scheduler.stalledAfter →
    ∀ now : Moment, now.IsCurrent → ¬now.Reaches c.lookBack
  hours : Duration.dayBound * Duration.microsPerDay ≤ c.longest ↔ 24000000000 ≤ c.drops.maxHours

theorem reaches_of_le (small : c.scheduler.stalledAfter ≤ 63082195200) {now : Moment}
    (current : now.IsCurrent) : now.Reaches c.lookBack := by
  have hsince := current.since
  have hinstant := current.instant
  simp only [show Duration.microsPerDay = 86400000000 by decide,
    show Calendar.daysBeforeYear 2000 = 730119 by decide] at hsince hinstant
  have hback : c.lookBack = c.scheduler.stalledAfter * 1000000 := rfl
  exact ⟨by omega, by omega⟩

theorem not_reaches_of_ge (large : 94670812800 ≤ c.scheduler.stalledAfter) {now : Moment}
    (current : now.IsCurrent) : ¬now.Reaches c.lookBack := by
  intro reaches
  have hwall := reaches.wall
  have hbefore := current.before
  simp only [show Duration.microsPerDay = 86400000000 by decide,
    show Calendar.daysBeforeYear 3001 = 1095727 by decide] at hbefore
  have hback : c.lookBack = c.scheduler.stalledAfter * 1000000 := rfl
  omega

theorem longest_huge_iff :
    Duration.dayBound * Duration.microsPerDay ≤ c.longest ↔ 24000000000 ≤ c.drops.maxHours := by
  have hlongest : c.longest = c.drops.maxHours * 3600000000 := rfl
  have hbound : (Duration.dayBound * Duration.microsPerDay : Int) = 86400000000000000000 := by
    decide
  rw [hlongest, hbound]
  omega

/-- **A limit is harmless unless it is thousands of years.** For every accepted configuration: a
sweep of our time gets past what was interrupted exactly if its limit does not go back beyond the
calendar, and is over at once with a fault of arithmetic if it does; and a duration of at most a
week, within the longest one, is granted its deadline exactly if the longest one is a length of
time. -/
theorem limits_decide {data : Value} (accepted : parse data = .ok c) : c.LimitsDecide := by
  have hread := parse_ok.mp accepted
  have hback : 0 < c.scheduler.stalledAfter := hread.scheduler.stalledAfter.2
  have hhours : 0 < c.drops.maxHours := hread.drops.maxHours.2
  exact
    { sweeps := fun current h goes => sweep_begins hback current h goes
      deadlines := fun current read least within week =>
        deadline_dates current hhours read least within week
      starts := fun huge => starts_nothing hhours huge
      harmless := fun small _ current => reaches_of_le small current
      harmful := fun large _ current => not_reaches_of_ge large current
      hours := longest_huge_iff }

/-- A configuration whose sweeper waits for tens of thousands of years, and whose drops may last for
millions of them. -/
def patient : Value := .record
  [("config_id", .text "patient"), ("version", .int 1),
   ("database", .record [("url", .text "sqlite://")]),
   ("ledger", .record [("minimum_tip", .text "0.001")]),
   ("scheduler", .record [("stalled_after_seconds", .int 1000000000000)]),
   ("reactdrop", .record [("max_duration_hours", .int 100000000000)])]

/-- It is accepted. In our time no sweep gets past what was interrupted, and a request for one hour
fails. -/
theorem patient_decides : ∃ c, parse patient = .ok c ∧ c.LimitsDecide ∧
    (∀ now : Moment, now.IsCurrent → ¬now.Reaches c.lookBack) ∧
    Clock.initial.time.IsCurrent ∧
    Drop.deadlineFor Clock.initial.time (.int 1) (.text "h") (.int c.drops.maxHours) =
      .error (.beyond .word) := by
  have hlimits : (parse patient).toOption.map
      (fun c => (c.scheduler.stalledAfter, c.drops.maxHours)) =
        some (1000000000000, 100000000000) := by decide +kernel
  cases hparse : parse patient with
  | error why => rw [hparse] at hlimits; cases hlimits
  | ok c =>
    rw [hparse] at hlimits
    obtain ⟨hback, hhours⟩ := Prod.mk.inj (Option.some.inj hlimits)
    have decides := limits_decide hparse
    have current : Clock.initial.time.IsCurrent :=
      ⟨⟨0, rfl, by decide⟩, by decide, by decide⟩
    refine ⟨c, rfl, decides, decides.harmful (by rw [hback]; decide), current, ?_⟩
    rw [hhours]
    rfl

end Config
end TipJar
