import TipJar.Program.Switch
import TipJar.Proofs.Backlogs

/-! Sweeps after starts and stops.

The signal that a stop raises is put down by the next start and by nothing else. So a
sweep begun by hand after the sweeper was stopped finds it up, and leaves every drop
of its batch where it is; after any other starts and stops, and after none, a sweep
attempts and reports all of them. -/
namespace TipJar
open Ledger

namespace Sweeper

/-! ### The switch -/

/-- A start, or a stop. -/
inductive Press
  | start
  | stop

namespace Switch
variable {s : Switch} {presses : List Press}

def press (s : Switch) : Press → Switch
  | .start => s.start
  | .stop => s.stop

/-- The switch after some starts and stops, each of which has come to its end. -/
def after (presses : List Press) : Switch := presses.foldl press fresh

/-- Whether the last thing that happened was that a sweeper was stopped which had been started. -/
def WasStopped (presses : List Press) : Prop :=
  .start ∈ presses ∧ presses.getLast? = some .stop

/-- What is known of the switch after some starts and stops. -/
structure IsAfter (presses : List Press) (s : Switch) : Prop where
  signal : s.signal.isSome = true ↔ .start ∈ presses
  up : s.isUp = true ↔ WasStopped presses
  running : s.running = true → s.signal = some false

theorem not_wasStopped_start : ¬WasStopped (presses ++ [.start]) := by
  intro h
  have hlast := h.2
  rw [List.getLast?_concat] at hlast
  cases hlast

theorem wasStopped_stop : WasStopped (presses ++ [.stop]) ↔ .start ∈ presses := by
  simp [WasStopped]

theorem isAfter_fresh : IsAfter [] fresh where
  signal := ⟨fun h => (Bool.false_ne_true h).elim, fun h => (List.not_mem_nil h).elim⟩
  up := ⟨fun h => (Bool.false_ne_true h).elim, fun h => (List.not_mem_nil h.1).elim⟩
  running h := (Bool.false_ne_true h).elim

/-- A start puts the signal down, unless the loop is running, and then it is down. -/
theorem IsAfter.start (h : IsAfter presses s) : IsAfter (presses ++ [.start]) s.start := by
  have hdown : s.start.signal = some false := by
    unfold Switch.start
    cases hrunning : s.running with
    | true => exact h.running hrunning
    | false => rfl
  refine ⟨?_, ?_, fun _ => hdown⟩
  · rw [hdown]
    exact iff_of_true rfl (List.mem_append_right _ List.mem_cons_self)
  · unfold isUp
    rw [hdown]
    exact iff_of_false Bool.false_ne_true not_wasStopped_start

/-- A stop puts the signal up, if there is one. -/
theorem IsAfter.stop (h : IsAfter presses s) : IsAfter (presses ++ [.stop]) s.stop := by
  have hmem : .start ∈ presses ++ [.stop] ↔ .start ∈ presses := by simp
  refine ⟨?_, ?_, fun h => (Bool.false_ne_true h).elim⟩
  · rw [hmem, ← h.signal]
    exact Bool.eq_iff_iff.mp Option.isSome_map
  · rw [wasStopped_stop, ← h.signal]
    unfold isUp Switch.stop raise
    cases s.signal <;> simp

/-- The signal is up just after a stop of a sweeper that was started before. -/
theorem isAfter_after (presses : List Press) : IsAfter presses (after presses) := by
  induction presses using List.reverseRecOn with
  | nil => exact isAfter_fresh
  | append_singleton presses last ih =>
    unfold after
    rw [List.foldl_concat]
    cases last with
    | start => exact ih.start
    | stop => exact ih.stop

end Switch

/-! ### Sweeps that heed it -/

/-- Whether a sweeper's sweeps are asked to stop as its switch says, from their beginning to their
end. -/
def Heeds (W : World) (switch : Switch) : Prop :=
  ∀ stop, W _ .stopping stop → stop = switch.isUp

variable {W : World} {s : Sweeper} {σ τ : State} {acts : List Act}

/-- Where the signal is up, no drop is attempted. -/
theorem settleEach_stopped {others : State → State → Prop} {ds : List Drop}
    {r : Checked (List Drop.Result)} (stops : ∀ stop, W _ .stopping stop → stop = true)
    (goes : (s.settleEach ds).Goes W others σ acts r τ) : acts = [] ∧ r = .ok [] := by
  cases ds with
  | nil =>
    obtain ⟨rfl, rfl, -⟩ := goes
    exact ⟨rfl, rfl⟩
  | cons d rest =>
    obtain ⟨asked, stop, -, hstop, hrest⟩ := (Program.goes_asked rfl).mp goes
    obtain rfl := stops stop hstop
    obtain ⟨rfl, rfl, -⟩ := hrest
    exact ⟨rfl, rfl⟩

/-- A sweep that heeds the switch, once it has read its batch: it attempts and reports every drop
of it, each in its turn, unless the sweeper was stopped and not started again. Then it attempts none
and reports none. -/
theorem sweep_heeds_switch {t : Moment} {presses : List Press} (honest : s.execute = Ledger.execute)
    (saves : ∀ operation, ¬W.Loses operation) (mentions : W.Mentions) (few : ¬W.Overflows)
    (reckons : s.Reckons W t) (positive : 1 ≤ s.batch) (fits : s.batch ≤ columnMax)
    (heeds : Heeds W (.after presses)) (h : σ.Reachable) {r : Checked Drop.Sweep}
    (goes : s.sweep.Goes W State.Run σ acts r τ) :
    ∃ asOf stalled asks middle pass, acts = .kept stalled :: .kept asks :: middle ∧ asks.Asks ∧
      r = .ok pass ∧ pass.startedAt.IsStoredAs asOf ∧
      (¬Switch.WasStopped presses →
        Batch W s (asks.before.store.due asOf (some s.batch)) asks.after (Act.units middle)
            (.ok pass.results) τ ∧
          pass.results.map (·.drop) =
            (asks.before.store.due asOf (some s.batch)).map (·.id)) ∧
      (Switch.WasStopped presses → pass.results = [] ∧ middle = []) := by
  have hswitch := Switch.isAfter_after presses
  obtain ⟨asOf, -, passes⟩ :=
    sweep_passes (fun _ _ run => run) (fun _ => .refl) saves reckons positive h.reached goes
  cases passes with
  | unasked huge => omega
  | @asked stalled asks middle left _ startedAt each interrupted _ timed unchanged run _ settling
      later =>
    have reached := h.reached.run run
    have hdue : asks.after.store.due asOf (some s.batch) =
        asks.before.store.due asOf (some s.batch) := by
      rw [show asks.after.store = _ from unchanged]
    rw [hdue] at settling
    by_cases stopped : Switch.WasStopped presses
    · have stops (stop : Bool) (hstop : W _ .stopping stop) : stop = true :=
        (heeds stop hstop).trans (hswitch.up.mpr stopped)
      obtain ⟨rfl, rfl⟩ := settleEach_stopped stops settling
      exact ⟨asOf, stalled, asks, [], _, rfl, unchanged, rfl, timed, fun h => absurd stopped h,
        fun _ => ⟨rfl, rfl⟩⟩
    · have goesOn : W.GoesOn := fun stop hstop =>
        (heeds stop hstop).trans (Bool.eq_false_iff.mpr (mt hswitch.up.mp stopped))
      have known : ∀ d ∈ asks.before.store.due asOf (some s.batch), asks.after.Knows d := by
        intro d hd
        rw [← hdue] at hd
        exact ⟨d, (Store.of_mem_due hd).1, .refl⟩
      have batch := settleEach_plays honest goesOn mentions few reached known
        (settling.plays fun _ _ run => run)
      cases each with
      | error why =>
        obtain ⟨operation, _, -, -, loses⟩ := batch.cause rfl
        exact absurd loses (saves operation)
      | ok results =>
        exact ⟨asOf, stalled, asks, middle, _, rfl, unchanged, rfl, timed,
          fun _ => ⟨batch.later later, batch.reports rfl⟩, fun h => absurd h stopped⟩

end Sweeper

/-! ### A sweep after a stop

The sweeper was started and stopped before Alice's drop and Bob's were due. -/

namespace Sample

theorem goes_switchedOff : patient.sweep.Goes (.mute true) State.Run waiting
    [.kept ⟨"fail_stalled_reactdrops", waiting, waiting⟩,
      .kept ⟨"find_due_reactdrops", waiting, waiting⟩]
    (.ok ⟨deadline, [], 0⟩) waiting := by
  have still (σ : State) : State.Run σ σ := .refl
  have hdue : waiting.store.due deadline (some 1) = [hers] := by
    rw [Store.due_eq_take (by decide), due_waiting]
    rfl
  have hfailed : waiting.Keeps (failStalled deadline patient.stalledAfter) [] waiting :=
    Sweeper.keeps_failStalled (desk 8) rfl rfl (Moment.isStoredAs_self rfl) (by decide +kernel)
  have hfound : waiting.Keeps
      (do Work.check ((← findDue deadline (some patient.batch)).mapM readDrop)) [hers] waiting :=
    Sweeper.keeps_due (desk 8) (Moment.isStoredAs_self rfl) (by decide) hdue rfl
  have heach : (patient.settleEach [hers]).Goes (.mute true) State.Run waiting [] (.ok [])
      waiting :=
    .andThen (k := []) (a := true) (Program.goes_answered (b := true) rfl (still _) rfl)
      ⟨rfl, rfl, rfl⟩
  refine .andThen (k := []) (a := deadline)
    (Program.goes_answered (b := deadline) rfl (still _) rfl) ?_
  refine .andThen (Program.goes_kept (still _) hfailed trivial) ?_
  refine .andThen (Program.goes_kept (still _) hfound trivial) ?_
  refine .andThen heach ?_
  exact Program.goes_answered (b := ⟨⟩) rfl (still _) trivial

end Sample

/-- The drop that is due is left where it is, and not reported. -/
theorem Sweeper.sample_switched_off :
    Sample.waiting.store.due Sample.deadline none = [Sample.hers, Sample.his] ∧
      ∃ acts pass, Sample.patient.sweep.Goes (.mute true) State.Run Sample.waiting acts (.ok pass)
          Sample.waiting ∧
        pass.results = [] ∧ Act.lookups acts = [] := by
  have heeds : Heeds (.mute true) (.after [.start, .stop]) := fun _ hstop => hstop
  obtain ⟨_, _, _, _, pass, hacts, -, hpass, -, -, hstopped⟩ :=
    sweep_heeds_switch rfl World.not_loses_mute World.mentions_mute World.not_overflows_mute
      Sample.reckons_patient (by decide) (by decide) heeds Sample.contained_waiting.reachable
      Sample.goes_switchedOff
  obtain ⟨hresults, rfl⟩ := hstopped ⟨List.mem_cons_self, rfl⟩
  exact ⟨Sample.due_waiting, _, pass, hpass ▸ hacts ▸ Sample.goes_switchedOff, hresults, rfl⟩

end TipJar
