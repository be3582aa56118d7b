import TipJar.Proofs.Backlogs
import TipJar.Proofs.Deadlines

/-! Asking for drops.

Moments come with any offset, and a column keeps the reading of each in universal
time. Queries compare such readings, while the rest of the program compares the
instants: both agree, because a reading in universal time is nothing but the instant.
So what is asked of the tables is what is asked of the drops themselves, row for row
and in one order. Only a question that no column can hold is not answered: a moment
whose reading in universal time falls outside the calendar, or a number beyond 64
bits. -/
namespace TipJar
open Ledger

/-! ### Readings in universal time -/

namespace Moment
variable {m n u v : Moment}

/-- The reading that a column holds is the instant itself. -/
theorem IsStoredAs.wall (h : m.IsStoredAs u) : (u.wall : Int) = m.instant := (of?_wall h.2).1

theorem IsStoredAs.instant (h : m.IsStoredAs u) : u.instant = m.instant := instant_toUtc? h.2

/-- Moments are in the order of what columns hold of them. -/
theorem IsStoredAs.noLater (h : m.IsStoredAs u) (h' : n.IsStoredAs v) :
    m.noLater n = .ok (decide (u.wall ≤ v.wall)) := by
  unfold Moment.noLater
  rw [if_pos (h.1.trans h'.1.symm), ← h.wall, ← h'.wall]
  simp only [Int.ofNat_le]

theorem IsStoredAs.noLater_iff (h : m.IsStoredAs u) (h' : n.IsStoredAs v) :
    m.noLater n = .ok true ↔ m.instant ≤ n.instant := by
  unfold Moment.noLater
  rw [if_pos (h.1.trans h'.1.symm)]
  simp

theorem sub?_eq_some {d : Duration} (h : m.sub? d = some n) :
    n.instant = m.instant - d.micros := by
  obtain ⟨hwall, hoffset⟩ := of?_wall h
  unfold Moment.instant
  rw [hwall, hoffset]
  omega

/-- Whatever leads from one moment of the calendar to another is a length of time. -/
theorem ofMicros_of_sub? {micros : Int} (h : m.sub? ⟨micros⟩ = some n) :
    Duration.ofMicros micros = .ok ⟨micros⟩ := by
  have hwall := (of?_wall h).1
  have hlimit : ((Calendar.dayCount * Duration.microsPerDay : Nat) : Int) ≤
      Duration.maxDays * Duration.microsPerDay := by decide
  have hbound : Duration.maxDays * Duration.microsPerDay <
      Duration.dayBound * Duration.microsPerDay := by decide
  have hm := m.wall_lt
  have hn := n.wall_lt
  dsimp only at hwall
  exact Duration.ofMicros_of_lt (by omega) (by omega)

end Moment

/-! ### The order of drops -/

/-- Whether a drop stands before another one: by a moment, and where that is the same by its
identifier. -/
def Drop.Before (moment : Drop → Int) (d e : Drop) : Prop :=
  moment d < moment e ∨ moment d = moment e ∧ d.id.value < e.id.value

namespace Ledger
namespace Store
variable {s : Store}

/-- Whether a list answers a question about the drops of the tables: these are the ones of which
the answer is yes, each of them once, in the order of a moment and of identifiers. -/
structure Answers (s : Store) (asked : Drop → Prop) (moment : Drop → Int) (found : List Drop) :
    Prop where
  exactly : ∀ d, d ∈ found ↔ d ∈ s.drops ∧ asked d
  ordered : found.Pairwise (Drop.Before moment)

theorem before_of_isLE {moment : Drop → Int} {d e : Drop}
    (h : (dropOrder moment d e).isLE = true) (different : d.id ≠ e.id) :
    Drop.Before moment d e := by
  refine (isLE_compare_then.mp h).imp_right fun ⟨same, hid⟩ => ⟨same, ?_⟩
  exact lt_of_le_of_ne (Nat.isLE_compare.mp hid) fun hvalue => different (Uuid.eq_of_value hvalue)

/-- Rows that are picked and sorted answer the question they are picked by. -/
theorem answers_sortedBy (hi : s.IdsDiffer) (asked : Drop → Bool) (moment : Drop → Int) :
    s.Answers (asked · = true) moment (sortedBy (dropOrder moment) (s.drops.filter asked)) where
  exactly _ := (perm_sortedBy _ _).mem_iff.trans List.mem_filter
  ordered := by
    have hdiffer := List.pairwise_map.mp (nodup_sortedBy_filter hi (dropOrder moment) asked)
    exact ((pairwise_sortedBy _).and hdiffer).imp fun h => before_of_isLE h.1 h.2

theorem Answers.congr {asked other : Drop → Prop} {moment : Drop → Int} {found : List Drop}
    (h : s.Answers asked moment found) (same : ∀ d, asked d ↔ other d) :
    s.Answers other moment found where
  exactly d := by rw [h.exactly, same]
  ordered := h.ordered

end Store

/-! ### The two questions -/

variable {s : Store} {desk : Desk} {asOf cutoff utc early : Moment}

/-- What is found of the drops that are due: those that say so themselves, the longest due first.
With whatever offset a deadline was given, it has come if it is no later than the moment that is
asked about. A limit takes the front. -/
structure Desk.FindsDue (desk : Desk) (s : Store) (asOf : Moment) (due : List Drop) : Prop where
  gives : (findDue asOf none).Gives desk due desk
  readable : due.mapM readDrop = .ok due
  answers : s.Answers (·.isDue asOf = true) (·.deadline.instant) due
  given : ∀ d ∈ s.drops, ∀ m : Moment, m.IsStoredAs d.deadline →
    (d ∈ due ↔ d.has .pending = true ∧ m.noLater asOf = .ok true)
  limited : ∀ k : Nat, (k : Int) ≤ columnMax →
    (findDue asOf (some k)).Gives desk (due.take k) desk

/-- What is found of the drops whose settlement has stalled: those that were claimed at or before
the cutoff, with whatever offset that was read, and are still settling. -/
structure Desk.FindsStalled (desk : Desk) (s : Store) (asOf : Moment) (seconds : Int)
    (cutoff : Moment) (stalled : List Drop) : Prop where
  gives : (findStalled asOf (.scalar (.int seconds))).Gives desk stalled desk
  readable : stalled.mapM readDrop = .ok stalled
  answers : s.Answers (fun d => d.has .settling = true ∧
      ∃ claimed, d.claimedAt = some claimed ∧
        claimed.instant ≤ asOf.instant - seconds * Duration.microsPerSecond)
    Store.claimInstant stalled
  given : ∀ d ∈ s.drops, ∀ m claimed : Moment, d.claimedAt = some claimed →
    m.IsStoredAs claimed → (d ∈ stalled ↔ d.has .settling = true ∧ m.noLater cutoff = .ok true)

theorem readable_of_has {status : Drop.Status} {found : List Drop}
    (h : ∀ d ∈ found, d.has status = true) : found.mapM readDrop = .ok found :=
  Sweeper.mapM_readDrop fun d hd => ⟨status, eq_of_beq (h d hd)⟩

theorem findDue_gives {limit : Option Int} (hs : desk.Holds s) (timed : asOf.IsStoredAs utc)
    (fits : ∀ n, limit = some n → -columnMax - 1 ≤ n ∧ n ≤ columnMax) :
    (findDue asOf limit).Gives desk (s.due utc limit) desk := by
  have hread : (Work.read (·.due utc limit)).Gives desk (s.due utc limit) desk :=
    Work.gives_read.mpr ⟨s, hs, rfl, rfl⟩
  refine Work.gives_bind.mpr ⟨utc, desk, Work.gives_stored.mpr ⟨timed, rfl⟩, ?_⟩
  cases limit with
  | none => exact hread
  | some n =>
    exact Work.gives_bind.mpr ⟨⟨⟩, desk, Work.gives_column.mpr ⟨⟨s, hs⟩, fits n rfl, rfl⟩, hread⟩

theorem findsDue (hi : s.IdsDiffer) (hs : desk.Holds s) (timed : asOf.IsStoredAs utc) :
    desk.FindsDue s asOf (s.due utc none) := by
  have hasked (d : Drop) : d.isDue utc = true ↔ d.isDue asOf = true := by
    unfold Drop.isDue
    rw [timed.instant]
  have answers : s.Answers (·.isDue asOf = true) (·.deadline.instant) (s.due utc none) :=
    (Store.answers_sortedBy hi _ _).congr hasked
  refine ⟨findDue_gives hs timed nofun, Sweeper.mapM_readDrop_due s utc none, answers,
    fun d hd m given => ?_, fun k fits => ?_⟩
  · rw [answers.exactly, given.noLater_iff timed, ← given.instant]
    simp [Drop.isDue, hd]
  · have htake : s.due utc (some (k : Int)) = (s.due utc none).take k := Store.limited_natCast k _
    rw [← htake]
    refine findDue_gives hs timed fun n hn => ?_
    obtain rfl := Option.some.inj hn
    exact natCast_fits.mpr fits

theorem findsStalled {seconds : Int} (hi : s.IdsDiffer) (hs : desk.Holds s)
    (reckoned : asOf.sub? ⟨seconds * Duration.microsPerSecond⟩ = some cutoff)
    (timed : cutoff.IsStoredAs early) :
    desk.FindsStalled s asOf seconds cutoff (s.stalled early) := by
  have hlength : (Value.scalar (.int seconds)).seconds =
      .ok ⟨seconds * Duration.microsPerSecond⟩ := by
    refine (Value.duration_int seconds "seconds" _).trans ?_
    rw [Moment.ofMicros_of_sub? reckoned]
    rfl
  have hcutoff : Checked.inCalendar (asOf.sub? ⟨seconds * Duration.microsPerSecond⟩) =
      .ok cutoff := by
    rw [reckoned]
    rfl
  have hinstant : early.instant = asOf.instant - seconds * Duration.microsPerSecond :=
    timed.instant.trans (Moment.sub?_eq_some reckoned)
  have hasked (d : Drop) : (d.has .settling &&
      (d.claimedAt.map fun m => decide (m.instant ≤ early.instant)).getD false) = true ↔
      d.has .settling = true ∧ ∃ claimed, d.claimedAt = some claimed ∧
        claimed.instant ≤ asOf.instant - seconds * Duration.microsPerSecond := by
    rw [hinstant]
    cases d.claimedAt <;> simp
  have answers := (Store.answers_sortedBy hi _ Store.claimInstant).congr hasked
  refine ⟨findStalled_gives.mpr ⟨_, cutoff, early, s, hlength, hcutoff, timed, hs, rfl, rfl⟩,
    readable_of_has fun d hd => ((answers.exactly d).mp hd).2.1, answers,
    fun d hd m claimed hclaimed given => ?_⟩
  refine (answers.exactly d).trans ?_
  rw [given.noLater_iff timed, ← given.instant, ← timed.instant, hinstant]
  simp [hd, hclaimed]

/-- Whatever the tables hold, the two questions find exactly the drops that they ask for, in their
order, as long as what is asked fits a column; and they never find the same drop. -/
theorem queries_find (hi : s.IdsDiffer) (hs : desk.Holds s) (timed : asOf.IsStoredAs utc) :
    ∃ due, desk.FindsDue s asOf due ∧
      ∀ (seconds : Int) (cutoff early : Moment),
        asOf.sub? ⟨seconds * Duration.microsPerSecond⟩ = some cutoff → cutoff.IsStoredAs early →
        ∃ stalled, desk.FindsStalled s asOf seconds cutoff stalled ∧ ∀ d ∈ due, d ∉ stalled := by
  have due := findsDue hi hs timed
  refine ⟨_, due, fun seconds cutoff early reckoned later => ?_⟩
  have stalled := findsStalled hi hs reckoned later
  refine ⟨_, stalled, fun d hd hstalled => ?_⟩
  have hpending := (Bool.and_eq_true_iff.mp ((due.answers.exactly d).mp hd).2).1
  cases Drop.eq_of_has hpending ((stalled.answers.exactly d).mp hstalled).2.1

/-! ### One drop that waits, and one that was claimed

What is asked about is the deadline of both, read where clocks are an hour ahead. -/

end Ledger

namespace Sample

/-- The drop that waits. -/
def waits : Drop := request.row (.ofNat 2) "alice" opening deadline

def halfDone : Store := ⟨[], [], [drop, waits]⟩

def anHourAhead : Moment := ⟨3600000001, by decide, some 3600000000⟩

def halfDoneDesk : Desk := { desk 3 with tables := some halfDone }

theorem holds_halfDone : halfDoneDesk.Holds halfDone := ⟨rfl, rfl⟩

/-- Half an hour before the calendar ends, where clocks are an hour behind. -/
def lastEvening : Moment :=
  ⟨Calendar.dayCount * Duration.microsPerDay - 1800000000, by decide, some (-3600000000)⟩

end Sample

namespace Ledger

theorem halfDone_found : ∃ due stalled,
    Sample.halfDoneDesk.FindsDue Sample.halfDone Sample.anHourAhead due ∧
      Sample.halfDoneDesk.FindsStalled Sample.halfDone Sample.anHourAhead 0 Sample.anHourAhead
        stalled ∧
      Sample.waits ∈ due ∧ Sample.drop ∈ stalled := by
  have hi : Sample.halfDone.IdsDiffer := show List.Nodup _ by decide
  have timed : Sample.anHourAhead.IsStoredAs Sample.deadline := ⟨rfl, by decide +kernel⟩
  obtain ⟨due, hdue, hstalled⟩ := queries_find hi Sample.holds_halfDone timed
  obtain ⟨stalled, hstalled, -⟩ := hstalled 0 Sample.anHourAhead Sample.deadline
    (by decide +kernel) timed
  refine ⟨due, stalled, hdue, hstalled, ?_, ?_⟩
  · exact (hdue.given Sample.waits (by decide) Sample.deadline
      (Moment.isStoredAs_self rfl)).mpr ⟨rfl, by decide⟩
  · exact (hstalled.given Sample.drop (by decide) Sample.deadline Sample.deadline rfl
      (Moment.isStoredAs_self rfl)).mpr ⟨rfl, by decide⟩

/-- What no column can hold is not asked, although a drop is due: a moment after the calendar in
universal time, a limit beyond 64 bits, or a cutoff before the calendar. -/
theorem queries_not_always :
    Sample.lastEvening.isNaive = false ∧ Sample.waits.isDue Sample.lastEvening = true ∧
      (∀ due after, ¬(findDue Sample.lastEvening none).Gives Sample.halfDoneDesk due after) ∧
      (∀ due after, ¬(findDue Sample.anHourAhead (some 0x8000000000000000)).Gives
        Sample.halfDoneDesk due after) ∧
      ∀ stalled after, ¬(findStalled Sample.opening (.scalar (.int 1))).Gives
        Sample.halfDoneDesk stalled after := by
  refine ⟨rfl, by decide +kernel, fun due after h => ?_, fun due after h => ?_,
    fun stalled after h => ?_⟩
  · obtain ⟨_, _, hstored, -⟩ := Work.gives_bind.mp h
    have hnone : Sample.lastEvening.toUtc? = none := by decide +kernel
    cases hnone.symm.trans (Work.gives_stored.mp hstored).1.2
  · exact absurd (Sweeper.findDue_fits h) (by decide)
  · obtain ⟨length, _, _, _, hlength, hcutoff, -⟩ := findStalled_gives.mp h
    have hsecond : (Value.scalar (.int 1)).seconds = .ok ⟨1000000⟩ := rfl
    obtain rfl := Except.ok.inj (hlength.symm.trans hsecond)
    have hnone : Sample.opening.sub? ⟨1000000⟩ = none := by decide +kernel
    rw [hnone] at hcutoff
    cases hcutoff

end Ledger
end TipJar
