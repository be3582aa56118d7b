import TipJar.Proofs.Orders
import TipJar.Proofs.Passes

/-! Working off a backlog.

A sweep takes the front of the queue of drops that are due, and each of them is over
after it, however little the platform said: so none of them stands in the way of the
next sweep, which goes on where this one stopped. What was due at some moment is over
once as many batches have been swept as it fills, and the participants of each drop
have been looked up once. Only a batch that is too large for a query to count is never
taken: then no sweep gets anywhere. -/
namespace TipJar
open Ledger

/-! ### The queue -/

namespace Ledger.Store
variable {s : Store} {t asOf : Moment} {d : Drop}

/-- Drops stand in one order only, if no two have the same identifier. -/
theorem eq_of_ordered {moment : Drop → Int} {xs ys : List Drop} (hx : (xs.map (·.id)).Nodup)
    (hy : (ys.map (·.id)).Nodup) (same : ∀ d, d ∈ xs ↔ d ∈ ys)
    (ordered : xs.Pairwise fun a b => (dropOrder moment a b).isLE = true)
    (ordered' : ys.Pairwise fun a b => (dropOrder moment a b).isLE = true) : xs = ys := by
  refine List.Perm.eq_of_pairwise (fun a b ha hb hab hba => ?_) ordered ordered'
    ((List.perm_ext_iff_of_nodup (.of_map _ hx) (.of_map _ hy)).mpr same)
  have hsame : dropOrder moment a b = .eq := Std.OrientedCmp.isLE_antisymm hab hba
  have hvalue : a.id.value = b.id.value :=
    Std.LawfulEqCmp.eq_of_compare (Ordering.then_eq_eq.mp hsame).2
  exact Rows.eq_of_key Drop.id hx ha ((same b).mpr hb) (Uuid.eq_of_value hvalue)

theorem mem_due : d ∈ s.due asOf none ↔ d ∈ s.drops ∧ d.isDue asOf = true :=
  (perm_sortedBy _ _).mem_iff.trans List.mem_filter

/-- A batch is the front of the queue. -/
theorem due_eq_take {n : Int} (positive : 1 ≤ n) :
    s.due asOf (some n) = (s.due asOf none).take n.toNat := if_neg (by omega)

theorem isDue_mono (later : t.instant ≤ asOf.instant) (h : d.isDue t = true) :
    d.isDue asOf = true := by
  obtain ⟨pending, hdue⟩ := Bool.and_eq_true_iff.mp h
  exact Bool.and_eq_true_iff.mpr
    ⟨pending, decide_eq_true ((of_decide_eq_true hdue).trans later)⟩

/-- What is due later stands behind what is due now. -/
theorem due_append (hi : s.IdsDiffer) (later : t.instant ≤ asOf.instant) :
    s.due t none ++ (s.due asOf none).filter (fun d => !d.isDue t) = s.due asOf none := by
  have hqueue := s.pairwise_due asOf none
  refine eq_of_ordered ?_ (nodup_due hi _ _) ?_ ?_ hqueue
  · rw [List.map_append, List.nodup_append]
    refine ⟨nodup_due hi _ _, (nodup_due hi _ _).sublist (List.filter_sublist.map _), ?_⟩
    rintro _ hnow _ hlater rfl
    obtain ⟨d, hd, hid⟩ := List.mem_map.mp hnow
    obtain ⟨e, he, hsame⟩ := List.mem_map.mp hlater
    obtain ⟨he, hnot⟩ := List.mem_filter.mp he
    obtain rfl := Rows.eq_of_key Drop.id hi (of_mem_due hd).1 (of_mem_due he).1
      (hid.trans hsame.symm)
    rw [(of_mem_due hd).2] at hnot
    cases hnot
  · intro d
    rw [List.mem_append, List.mem_filter]
    constructor
    · rintro (hd | ⟨hd, -⟩)
      · obtain ⟨hdrop, hdue⟩ := mem_due.mp hd
        exact mem_due.mpr ⟨hdrop, isDue_mono later hdue⟩
      · exact hd
    · intro hd
      by_cases hdue : d.isDue t = true
      · exact .inl (mem_due.mpr ⟨(mem_due.mp hd).1, hdue⟩)
      · exact .inr ⟨hd, by simpa using hdue⟩
  · refine List.pairwise_append.mpr ⟨s.pairwise_due t none, hqueue.sublist List.filter_sublist, ?_⟩
    intro d hd e he
    obtain ⟨he, hnot⟩ := List.mem_filter.mp he
    have hdue := (Bool.and_eq_true_iff.mp (of_mem_due hd).2).2
    have hpending := (Bool.and_eq_true_iff.mp (of_mem_due he).2).1
    have hbefore : d.deadline.instant < e.deadline.instant := by
      refine lt_of_le_of_lt (of_decide_eq_true hdue) (Int.not_le.mp fun hearly => ?_)
      rw [Drop.isDue, hpending, decide_eq_true hearly] at hnot
      cases hnot
    have hfirst : compare d.deadline.instant e.deadline.instant = .lt :=
      compare_lt_iff_lt.mpr hbefore
    show ((compare d.deadline.instant e.deadline.instant).then _).isLE = true
    rw [hfirst]
    rfl

end Ledger.Store

/-! ### One sweep -/

theorem Drop.IsOver.not_pending {d : Drop} (h : d.IsOver) : ¬d.has .pending = true := by
  intro pending
  rcases h with ended | ended | ended <;> cases eq_of_has pending ended

namespace State
variable {σ τ : State} {t asOf : Moment} {d : Drop}

theorem Reached.mem_due (h : σ.Reached) :
    d ∈ σ.store.due t none ↔ σ.Awaits d ∧ d.deadline.instant ≤ t.instant := by
  rw [Store.mem_due, Drop.isDue, Bool.and_eq_true, decide_eq_true_iff, awaits_iff h, and_assoc]

/-- Where the same drops wait, the queue is the same. -/
theorem WaitsAs.due (h : σ.Reached) (later : τ.Reached) (waits : τ.WaitsAs σ) :
    τ.store.due asOf none = σ.store.due asOf none :=
  Store.eq_of_ordered (Store.nodup_due later.idsDiffer _ _) (Store.nodup_due h.idsDiffer _ _)
    (fun d => by rw [later.mem_due, h.mem_due, waits d])
    (τ.store.pairwise_due _ _) (σ.store.pairwise_due _ _)

end State

namespace Sweeper
variable {W : World} {s : Sweeper} {σ τ : State} {t : Moment} {acts : List Act}

/-- One sweep: where it begins, what is seen of it, what it gives and where it ends. -/
structure Round where
  before : State
  acts : List Act
  result : Checked Drop.Sweep
  after : State

/-- Whether a sweep takes some drops, as it should: they are the front of what is due when it looks,
each is reported and over, the participants of each have been looked up once, and all other drops
that wait are left as they are. -/
structure Takes (s : Sweeper) (t : Moment) (round : Round) (taken : List Drop) : Prop where
  front : ∃ pass asOf, round.result = .ok pass ∧ pass.startedAt.IsStoredAs asOf ∧
    t.instant ≤ asOf.instant ∧ taken = (round.before.store.due asOf none).take s.batch.toNat ∧
    pass.results.map (·.drop) = taken.map (·.id)
  first : (round.before.store.due t none).take s.batch.toNat <+: taken
  isOver : ∀ d ∈ taken, ∃ row, round.after.store.drop? d.id = some row ∧ row.IsOver
  waiting : ∀ d, round.after.Awaits d ↔ round.before.Awaits d ∧ d ∉ taken
  looked : Act.lookups round.acts = taken.map Drop.lookup

section Undisturbed
variable (honest : s.execute = Ledger.execute) (saves : ∀ operation, ¬W.Loses operation)
  (goesOn : W.GoesOn) (mentions : W.Mentions) (few : ¬W.Overflows) (reckons : s.Reckons W t)
  (positive : 1 ≤ s.batch)
include honest saves goesOn mentions few reckons positive

/-- A sweep that has the drops to itself takes the front of what is due. -/
theorem sweep_takes (fits : s.batch ≤ columnMax) (h : σ.Reached) {r : Checked Drop.Sweep}
    (goes : s.sweep.Goes W State.Calm σ acts r τ) : ∃ taken, s.Takes t ⟨σ, acts, r, τ⟩ taken := by
  obtain ⟨asOf, later, passes⟩ :=
    sweep_passes (fun _ _ => State.Calm.run) State.calm_refl saves reckons positive h goes
  cases passes with
  | unasked huge => omega
  | @asked stalled asks middle left _ startedAt each interrupted _ timed _ run leaves settling
      calm =>
    have reached := h.run run
    have waits := leaves State.leavesWaiting_calm
    have hqueue : asks.after.store.due asOf (some s.batch) =
        (σ.store.due asOf none).take s.batch.toNat := by
      rw [Store.due_eq_take positive, waits.due h reached]
    have hawaits : ∀ d ∈ asks.after.store.due asOf (some s.batch), asks.after.Awaits d := by
      intro d hd
      rw [Store.due_eq_take positive] at hd
      exact (reached.mem_due.mp (List.mem_of_mem_take hd)).1
    obtain ⟨⟨results, rfl, named⟩, isOver, others, hlooked⟩ :=
      settleEach_turns honest saves mentions few goesOn reached hawaits
        (Store.nodup_due reached.idsDiffer _ _) settling
    rw [hqueue] at named isOver others hlooked hawaits
    refine ⟨(σ.store.due asOf none).take s.batch.toNat,
      ⟨_, asOf, rfl, timed, later, rfl, named⟩, ?_, ?_, ?_, hlooked⟩
    · rw [← Store.due_append h.idsDiffer later]
      exact (List.prefix_append _ _).take _
    · intro d hd
      obtain ⟨row, found, ended⟩ := isOver d hd
      exact ⟨row, (calm.drop? d.id).trans found, ended⟩
    · intro d
      refine (calm.waitsAs d).trans (Iff.trans ?_ (and_congr_left fun _ => waits d))
      by_cases hd : d.id ∈ ((σ.store.due asOf none).take s.batch.toNat).map (·.id)
      · obtain ⟨e, he, hid⟩ := List.mem_map.mp hd
        constructor
        · rintro ⟨hrow, pending⟩
          obtain ⟨row, hfound, ended⟩ := isOver e he
          rw [hid, hrow] at hfound
          obtain rfl := Option.some.inj hfound
          exact absurd pending ended.not_pending
        · rintro ⟨⟨hrow, -⟩, hnot⟩
          have hsame := (hawaits e he).1
          rw [hid, hrow] at hsame
          exact absurd (Option.some.inj hsame ▸ he) hnot
      · rw [State.awaits_congr (others d.id hd)]
        exact (and_iff_left fun h => hd (List.mem_map_of_mem h)).symm

omit honest goesOn mentions few in
/-- A batch that no query can count is never taken, and its sweep fails. -/
theorem sweep_stuck (huge : columnMax < s.batch) (h : σ.Reached) {r : Checked Drop.Sweep}
    (goes : s.sweep.Goes W State.Calm σ acts r τ) :
    r = .error (.beyond .stored) ∧ Act.lookups acts = [] ∧ τ.WaitsAs σ := by
  obtain ⟨asOf, later, passes⟩ :=
    sweep_passes (fun _ _ => State.Calm.run) State.calm_refl saves reckons positive h goes
  cases passes with
  | unasked _ leaves => exact ⟨rfl, rfl, leaves State.leavesWaiting_calm⟩
  | asked => omega

end Undisturbed

/-! ### One sweep after another -/

/-- Sweeps one after another, between which nobody touches a drop either. -/
inductive Rounds (W : World) (s : Sweeper) : State → List Round → State → Prop
  | none {σ τ : State} (calm : σ.Calm τ) : Rounds W s σ [] τ
  | next {σ τ : State} {round : Round} {rest : List Round} (calm : σ.Calm round.before)
      (goes : s.sweep.Goes W State.Calm round.before round.acts round.result round.after)
      (more : Rounds W s round.after rest τ) : Rounds W s σ (round :: rest) τ

variable {round : Round} {rounds : List Round} {taken : List Drop}

theorem Rounds.run (h : Rounds W s σ rounds τ) : State.Run σ τ := by
  induction h with
  | none calm => exact calm.run
  | next calm goes _ ih => exact calm.run.trans (goes.plays_calm.run.trans ih)

/-- What was due at a moment and is not taken by a sweep stays due, in its order. -/
theorem Takes.due (h : round.before.Reached) (later : round.after.Reached)
    (takes : s.Takes t round taken) :
    round.after.store.due t none = (round.before.store.due t none).drop s.batch.toNat := by
  have hdue := round.before.store.pairwise_due t none
  have honce : (round.before.store.due t none).Nodup :=
    .of_map _ (Store.nodup_due h.idsDiffer t none)
  have htaken {d : Drop} (hd : d ∈ round.before.store.due t none) :
      d ∈ taken ↔ d ∈ (round.before.store.due t none).take s.batch.toNat := by
    refine ⟨fun hmem => ?_, fun hmem => takes.first.subset hmem⟩
    obtain ⟨_, asOf, -, -, later, rfl, -⟩ := takes.front
    rw [← Store.due_append h.idsDiffer later, List.take_append, List.mem_append] at hmem
    refine hmem.resolve_right fun hlate => ?_
    have hnot := (List.mem_filter.mp (List.mem_of_mem_take hlate)).2
    rw [(Store.of_mem_due hd).2] at hnot
    cases hnot
  refine Store.eq_of_ordered (Store.nodup_due later.idsDiffer t none)
    ((Store.nodup_due h.idsDiffer t none).sublist ((List.drop_sublist _ _).map _)) (fun d => ?_)
    (round.after.store.pairwise_due t none) (hdue.sublist (List.drop_sublist _ _))
  have hsplit := List.take_append_drop s.batch.toNat (round.before.store.due t none)
  rw [later.mem_due, takes.waiting d, and_right_comm, ← h.mem_due]
  constructor
  · rintro ⟨hd, hnot⟩
    rw [htaken hd] at hnot
    rw [← hsplit, List.mem_append] at hd
    exact hd.resolve_left hnot
  · intro hd
    have hmem := List.mem_of_mem_drop hd
    refine ⟨hmem, fun h => ?_⟩
    rw [← hsplit] at honce
    exact (List.nodup_append.mp honce).2.2 d ((htaken hmem).mp h) d hd rfl

section Undisturbed
variable (honest : s.execute = Ledger.execute) (saves : ∀ operation, ¬W.Loses operation)
  (goesOn : W.GoesOn) (mentions : W.Mentions) (few : ¬W.Overflows) (reckons : s.Reckons W t)
  (positive : 1 ≤ s.batch)
include honest saves goesOn mentions few reckons positive

/-- Sweep by sweep the queue is worked off from its front, and no drop is taken twice. -/
theorem rounds_take (fits : s.batch ≤ columnMax) (h : σ.Reached)
    (sweeps : Rounds W s σ rounds τ) :
    ∃ turns, List.Forall₂ (s.Takes t) rounds turns ∧ turns.flatten.Nodup ∧
      (∀ d ∈ turns.flatten,
        σ.Awaits d ∧ ∃ row, τ.store.drop? d.id = some row ∧ row.IsOver) ∧
      (σ.store.due t none).take (rounds.length * s.batch.toNat) ⊆ turns.flatten := by
  induction sweeps with
  | none =>
    refine ⟨[], .nil, List.nodup_nil, List.forall_mem_nil _, ?_⟩
    rw [List.length_nil, Nat.zero_mul]
    exact List.nil_subset _
  | @next σ τ round rest calm goes more ih =>
    have hbefore := h.run calm.run
    have hafter := hbefore.run goes.plays_calm.run
    obtain ⟨taken, takes⟩ :=
      sweep_takes honest saves goesOn mentions few reckons positive fits hbefore goes
    replace takes : s.Takes t round taken := takes
    obtain ⟨turns, each, once, waited, reached⟩ := ih hafter
    refine ⟨taken :: turns, .cons takes each, ?_, ?_, ?_⟩
    · obtain ⟨_, asOf, -, -, -, rfl, -⟩ := takes.front
      have hdue : (round.before.store.due asOf none).Nodup :=
        .of_map _ (Store.nodup_due hbefore.idsDiffer asOf none)
      refine List.nodup_append.mpr ⟨hdue.sublist (List.take_sublist _ _), once, ?_⟩
      rintro d hd _ hlater rfl
      exact ((takes.waiting d).mp (waited d hlater).1).2 hd
    · intro d hd
      rcases List.mem_append.mp hd with hd | hd
      · obtain ⟨_, asOf, -, -, -, rfl, -⟩ := takes.front
        obtain ⟨row, found, ended⟩ := takes.isOver d hd
        exact ⟨(calm.waitsAs d).mp (hbefore.mem_due.mp (List.mem_of_mem_take hd)).1, row,
          State.Run.drop?_of_isOver hafter more.run found ended, ended⟩
      · obtain ⟨hawaits, isOver⟩ := waited d hd
        exact ⟨(calm.waitsAs d).mp ((takes.waiting d).mp hawaits).1, isOver⟩
    · rw [takes.due hbefore hafter, calm.waitsAs.due h hbefore] at reached
      rw [List.length_cons, Nat.succ_mul, Nat.add_comm, List.take_add]
      exact List.append_subset.mpr ⟨fun d hd => List.mem_append_left _
        (takes.first.subset ((calm.waitsAs.due h hbefore).symm ▸ hd)),
        fun d hd => List.mem_append_right _ (reached hd)⟩

/-- **Everybody gets a turn.** As long as the size of a batch can be counted in a query, each sweep
takes the front of what is due, and once batches enough for all that was due at a moment have been
swept, each of these drops is over and was taken by one sweep and once, however the platform has
answered. A larger batch is never taken: then every sweep fails before it has looked at any drop. -/
theorem backlog_worked_off (h : σ.Reachable) (sweeps : Rounds W s σ rounds τ) :
    (s.batch ≤ columnMax → ∃ turns, List.Forall₂ (s.Takes t) rounds turns ∧
      ((σ.store.due t none).length ≤ rounds.length * s.batch.toNat →
        ∀ d ∈ σ.store.due t none, (∃ row, τ.store.drop? d.id = some row ∧ row.IsOver) ∧
          turns.flatten.count d = 1)) ∧
    (columnMax < s.batch → ∀ round ∈ rounds, round.result = .error (.beyond .stored) ∧
      Act.lookups round.acts = [] ∧ round.after.WaitsAs round.before) := by
  refine ⟨fun fits => ?_, fun huge => ?_⟩
  · obtain ⟨turns, each, once, waited, reached⟩ :=
      rounds_take honest saves goesOn mentions few reckons positive fits h.reached sweeps
    refine ⟨turns, each, fun enough d hd => ?_⟩
    rw [List.take_of_length_le enough] at reached
    have hmem := reached hd
    exact ⟨(waited d hmem).2, List.count_eq_one_of_mem once hmem⟩
  · have hreached := h.reached
    clear h
    induction sweeps with
    | none => exact List.forall_mem_nil _
    | next calm goes more ih =>
      have hbefore := hreached.run calm.run
      exact List.forall_mem_cons.mpr ⟨sweep_stuck saves reckons positive huge hbefore goes,
        ih (hbefore.run goes.plays_calm.run)⟩

end Undisturbed

end Sweeper

/-! ### Two drops, one at a time

Alice's drop and Bob's are due, and a batch is one drop. Nobody answers who took part. -/

/-- A world in which the platform names nobody, the clock stands still and the store loses nothing.
Whether sweepers are asked to stop is told. -/
def World.mute (up : Bool) : World := fun _ e b =>
  match e, b with
  | .chore (.transact ..), .error (.refused (.unsaved ..)) => False
  | .chore .now, now => now = Sample.deadline
  | .mention _, .error _ => False
  | .call (.reactions ..) _, .ok _ => False
  | .stopping, stop => stop = up
  | _, _ => True

namespace World
variable {up : Bool}

theorem not_loses_mute (operation : String) : ¬(mute up).Loses operation := by
  intro h
  obtain ⟨_, _, _, hnever⟩ := h
  exact hnever

theorem goesOn_mute : (mute false).GoesOn := fun _ h => h

theorem mentions_mute : (mute up).Mentions := by
  intro account b h
  cases b with
  | ok markup => exact ⟨markup, rfl⟩
  | error why => exact h.elim

theorem not_overflows_mute : ¬(mute up).Overflows := by
  intro h
  obtain ⟨_, _, _, _, _, hnever, _⟩ := h
  exact hnever

end World

namespace Sample

/-- A sweeper that takes one drop at a time. -/
def patient : Sweeper := { hasty with batch := 1 }

theorem reckons_patient {up : Bool} : patient.Reckons (.mute up) deadline where
  since now h := by
    obtain rfl : now = deadline := h
    exact Int.le_refl _
  storable now h := by
    obtain rfl : now = deadline := h
    exact ⟨deadline, Moment.isStoredAs_self rfl⟩
  reaches := by
    refine ⟨⟨0⟩, rfl, fun now h => ⟨deadline, deadline, ?_, Moment.isStoredAs_self rfl⟩⟩
    obtain rfl : now = deadline := h
    decide +kernel

/-- A drop is claimed and failed. -/
def unheard (σ : State) (d : Drop) (next : Nat) : State :=
  (underway σ d next).perform (.fail d.id Sweeper.lookupReason none) "fail_reactdrop" (desk next)

def unheardReport (d : Drop) : Drop.Result :=
  ⟨d.id, .failed, none, some Sweeper.lookupReason⟩

def unheardActs (σ : State) (d : Drop) (next : Nat) : List Act :=
  [.kept ⟨"fail_stalled_reactdrops", σ, σ⟩, .kept ⟨"find_due_reactdrops", σ, σ⟩,
    .kept ⟨"claim_reactdrop", σ, underway σ d next⟩, .called d.lookup,
    .kept ⟨"fail_reactdrop", underway σ d next, unheard σ d next⟩]

section Unheard
variable {σ : State} {d : Drop} {next : Nat} (h : σ.Reachable) (hd : d ∈ [hers, his])
  (there : d ∈ σ.store.drops)
include h hd there

theorem keeps_unheard : (underway σ d next).Keeps
    (do Ledger.markFailed d.id Sweeper.lookupReason (← Work.now) none)
    ((d.asClaimed deadline).asFailed (keptReason Sweeper.lookupReason) none deadline)
    (unheard σ d next) := by
  have hbegun := (underway σ d next).holds_begun (desk next)
  have hrow : (underway σ d next).store.drop? d.id = _ := drop?_underway h.reached hd there
  have hgives : (do Ledger.markFailed d.id Sweeper.lookupReason (← Work.now) none).Gives
      ((underway σ d next).begun (desk next)) _ _ :=
    Work.gives_bind.mpr ⟨deadline, _, Work.gives_now.mpr ⟨rfl, rfl⟩, markFailed_gives.mpr
      ⟨deadline, _, _, Moment.isStoredAs_self rfl, by simp, hbegun, hrow, rfl, rfl, rfl⟩⟩
  have hwork : (Deed.fail d.id Sweeper.lookupReason none).work =
      (do Ledger.markFailed d.id Sweeper.lookupReason (← Work.now) none) >>= fun _ => pure [] := by
    simp [Deed.work]
  exact State.keeps_of_perform (.fail d.id Sweeper.lookupReason none) trivial hwork hgives
    (hbegun.keep _) _

/-- The drop that is due is claimed, nobody answers, and it is failed. -/
theorem goes_unheard (unstalled : σ.store.stalled deadline = [])
    (hdue : σ.store.due deadline (some 1) = [d]) :
    patient.sweep.Goes (.mute false) State.Calm σ (unheardActs σ d next)
      (.ok ⟨deadline, [unheardReport d], 0⟩) (unheard σ d next) := by
  have still := State.calm_refl
  have timed : (desk next).now.IsStoredAs deadline := Moment.isStoredAs_self rfl
  have hfailed : σ.Keeps (failStalled deadline patient.stalledAfter) [] σ :=
    Sweeper.keeps_failStalled (desk next) rfl rfl (Moment.isStoredAs_self rfl) unstalled
  have hfound : σ.Keeps
      (do Work.check ((← findDue deadline (some patient.batch)).mapM readDrop)) [d] σ :=
    Sweeper.keeps_due (desk next) (Moment.isStoredAs_self rfl) (by decide) hdue
      (hdue ▸ Sweeper.mapM_readDrop_due _ _ _)
  have hclaim : σ.Keeps (do Ledger.claim d.id (← Work.now)) (d.asClaimed deadline)
      (underway σ d next) :=
    State.keeps_claim timed (Store.drop?_of_mem h.reached.idsDiffer there) (of_mem_drops hd).1 _
  have hasked : (Program.tryCall d.lookup (some patient.lookupLimit)).Goes (.mute false) State.Calm
      (underway σ d next) [.called d.lookup] (.ok (.error (.connection "gone")))
      (underway σ d next) := Program.goes_call (still _) trivial
  have habandon (told : String) :
      (Sweeper.abandon (d.asClaimed deadline) Sweeper.lookupReason told none).Goes (.mute false)
        State.Calm (underway σ d next)
        [.kept ⟨"fail_reactdrop", underway σ d next, unheard σ d next⟩]
        (.ok (unheardReport d)) (unheard σ d next) :=
    .andThen (k := []) (a := ⟨⟩) (Program.goes_answered (b := ⟨⟩) rfl (still _) trivial)
      (.andThen (Program.goes_attempt.mpr
        ⟨_, Program.goes_kept (still _) (keeps_unheard h hd there) trivial, rfl⟩) ⟨rfl, rfl, rfl⟩)
  have hone : (Program.within [(.drop, d.id.text)] (patient.settleOne d.id)).Goes (.mute false)
      State.Calm σ ([.kept ⟨"claim_reactdrop", σ, underway σ d next⟩] ++ ([.called d.lookup] ++
        [.kept ⟨"fail_reactdrop", underway σ d next, unheard σ d next⟩]))
      (.ok (unheardReport d)) (unheard σ d next) :=
    Program.Goes.bound (.andThen (Program.goes_attempt.mpr
      ⟨_, Program.goes_kept (still _) hclaim trivial, rfl⟩) (.andThen hasked (habandon _)))
      .empty still trivial trivial
  have heach : (patient.settleEach [d]).Goes (.mute false) State.Calm σ _ (.ok [unheardReport d])
      (unheard σ d next) :=
    .andThen (k := []) (a := false) (Program.goes_answered (b := false) rfl (still _) rfl)
      (.andThen hone (.andThen (k := []) (a := []) ⟨rfl, rfl, rfl⟩ ⟨rfl, rfl, rfl⟩))
  refine .andThen (k := []) (a := deadline)
    (Program.goes_answered (b := deadline) rfl (still _) rfl) ?_
  refine .andThen (Program.goes_kept (still _) hfailed trivial) ?_
  refine .andThen (Program.goes_kept (still _) hfound trivial) ?_
  refine .andThen heach ?_
  exact Program.goes_answered (b := ⟨⟩) rfl (still _) trivial

end Unheard

def afterHers : State := unheard waiting hers 8

def afterHis : State := unheard afterHers his 16

/-- Alice's drop is taken first, and Bob's next. -/
def inTurn : List Sweeper.Round :=
  [⟨waiting, unheardActs waiting hers 8, .ok ⟨deadline, [unheardReport hers], 0⟩, afterHers⟩,
    ⟨afterHers, unheardActs afterHers his 16, .ok ⟨deadline, [unheardReport his], 0⟩, afterHis⟩]

theorem due_waiting : waiting.store.due deadline none = [hers, his] := by
  have hdue : waiting.store.drops.filter (·.isDue deadline) = [hers, his] := by
    rw [drops_waiting]
    decide
  unfold Store.due Store.limited Store.sortedBy
  rw [hdue]
  exact List.mergeSort_of_pairwise (by decide)

theorem rounds_inTurn : Sweeper.Rounds (.mute false) patient waiting inTurn afterHis := by
  have still := State.calm_refl
  have hhers : hers ∈ waiting.store.drops := by
    rw [drops_waiting]
    exact List.mem_cons_self
  have hfirst : patient.sweep.Goes (.mute false) State.Calm waiting (unheardActs waiting hers 8) _
      afterHers :=
    goes_unheard contained_waiting.reachable List.mem_cons_self hhers (by decide +kernel)
      (by rw [Store.due_eq_take (by decide), due_waiting]; rfl)
  have hhis : his ∈ afterHers.store.drops := by decide +kernel
  have hsecond : patient.sweep.Goes (.mute false) State.Calm afterHers
      (unheardActs afterHers his 16) _ afterHis :=
    goes_unheard (contained_waiting.reachable.run hfirst.plays_calm.run)
      (List.mem_pair.mpr (.inr rfl)) hhis (by decide +kernel) (by decide +kernel)
  exact .next (still _) hfirst (.next (still _) hsecond (.none (still _)))

end Sample

/-- After two sweeps of one drop each, both drops are over, although nobody has said who took
part. -/
theorem Sweeper.sample_worked_off :
    Rounds (.mute false) Sample.patient Sample.waiting Sample.inTurn Sample.afterHis ∧
      ∀ d ∈ [Sample.hers, Sample.his],
        ∃ row, Sample.afterHis.store.drop? d.id = some row ∧ row.IsOver := by
  obtain ⟨turns, -, hover⟩ := (backlog_worked_off rfl World.not_loses_mute World.goesOn_mute
    World.mentions_mute World.not_overflows_mute Sample.reckons_patient (by decide)
    Sample.contained_waiting.reachable Sample.rounds_inTurn).1 (by decide)
  rw [Sample.due_waiting] at hover
  exact ⟨Sample.rounds_inTurn, fun d hd => (hover (by decide) d hd).1⟩

end TipJar
