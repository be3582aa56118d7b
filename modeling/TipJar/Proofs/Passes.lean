import TipJar.Proofs.Acts
import TipJar.Proofs.Releases
import TipJar.Proofs.Sweeps

/-! A sweep that has the drops to itself.

Others may tip, deposit and ask while a sweeper is at work; as long as none of them
touches a drop, and the store loses nothing, the sweeper gets through its batch. Every
drop of it has its turn: its participants are looked up once, it is reported, and it
is over, however the platform answers. No other drop that is pending is touched. -/
namespace TipJar
open Ledger

/-! ### Drops that nobody else touches -/

namespace State
variable {σ τ υ : State}

/-- What others do that leaves the drops alone. -/
def Calm (σ τ : State) : Prop := Run σ τ ∧ τ.store.drops = σ.store.drops

theorem Calm.run (h : σ.Calm τ) : Run σ τ := h.1

theorem Calm.drop? (h : σ.Calm τ) (id : Uuid) : τ.store.drop? id = σ.store.drop? id :=
  Store.drop?_congr id h.2

/-- Whether a drop is there and waits for a sweep. -/
def Awaits (σ : State) (d : Drop) : Prop := σ.store.drop? d.id = some d ∧ d.has .pending = true

theorem awaits_congr {d : Drop} (same : τ.store.drop? d.id = σ.store.drop? d.id) :
    τ.Awaits d ↔ σ.Awaits d := by
  unfold Awaits
  rw [same]

theorem awaits_iff {d : Drop} (h : σ.Reached) :
    σ.Awaits d ↔ d ∈ σ.store.drops ∧ d.has .pending = true :=
  and_congr_left fun _ =>
    ⟨Store.mem_of_drop? σ.store d.id, Store.drop?_of_mem h.idsDiffer⟩

/-- Whether the same drops wait as before, and are what they were. -/
def WaitsAs (τ σ : State) : Prop := ∀ d, τ.Awaits d ↔ σ.Awaits d

theorem WaitsAs.trans (h : υ.WaitsAs τ) (h' : τ.WaitsAs σ) : υ.WaitsAs σ :=
  fun d => (h d).trans (h' d)

/-- Whether others leave the drops that wait alone. -/
def LeavesWaiting (others : State → State → Prop) : Prop := ∀ σ τ, others σ τ → τ.WaitsAs σ

theorem Calm.waitsAs (h : σ.Calm τ) : τ.WaitsAs σ := fun d => awaits_congr (h.drop? d.id)

theorem leavesWaiting_calm : LeavesWaiting Calm := fun _ _ h => h.waitsAs

theorem calm_refl (σ : State) : σ.Calm σ := ⟨.refl, rfl⟩

/-- Whether the drops of a run are changed in some units of work only, one after the other. -/
def Follows : List Kept → State → State → Prop
  | [], σ, τ => τ.store.drops = σ.store.drops
  | k :: rest, σ, τ => k.before.store.drops = σ.store.drops ∧ Follows rest k.after τ

theorem Follows.after {units : List Kept} (h : Follows units τ υ)
    (same : τ.store.drops = σ.store.drops) : Follows units σ υ := by
  cases units with
  | nil => exact h.trans same
  | cons k rest => exact ⟨h.1.trans same, h.2⟩

/-- Units of work that leave a drop alone leave it as it is. -/
theorem Follows.drop? {units : List Kept} {id other : Uuid} (h : Follows units σ τ)
    (minds : ∀ k ∈ units, k.Minds id) (different : other ≠ id) :
    τ.store.drop? other = σ.store.drop? other := by
  induction units generalizing σ with
  | nil => exact Store.drop?_congr other h
  | cons k rest ih =>
    obtain ⟨hfirst, hrest⟩ := List.forall_mem_cons.mp minds
    rw [ih h.2 hrest, hfirst other different]
    exact Store.drop?_congr other h.1

end State

namespace Program
variable {α β : Type} {W : World} {σ τ : State} {acts : List Act}

/-- Among calm others a program changes drops in its own units of work only. -/
theorem Goes.follows {p : Program α} {r : Checked α} (h : p.Goes W State.Calm σ acts r τ) :
    State.Follows (Act.units acts) σ τ := by
  induction p generalizing σ acts with
  | done result =>
    obtain ⟨rfl, -, rfl⟩ := h
    rfl
  | perform e next ih =>
    obtain ⟨ready, b, left, rest, before, -, hcomes, hrest, rfl⟩ := h
    have hafter := ih b hrest
    rw [Act.units_append, e.units_acts]
    cases hwork : e.isWork with
    | false =>
      obtain rfl := (Effect.comesTo_of_other hwork).mp hcomes
      rw [Effect.kept_of_other hwork]
      exact hafter.after before.2
    | true =>
      cases e with
      | chore c =>
        cases c with
        | transact operation work =>
          cases b with
          | ok a => exact ⟨before.2, hafter⟩
          | error why =>
            obtain rfl : left = ready := hcomes.1
            exact hafter.after before.2
        | note | now | freshId | bind | restore => cases hwork
      | call | mention | wallet | stopping => cases hwork

theorem Goes.plays_calm {p : Program α} {r : Checked α} (h : p.Goes W State.Calm σ acts r τ) :
    p.Plays W σ (Act.units acts) r τ := h.plays fun _ _ => State.Calm.run

end Program

/-! ### Lookups -/

/-- Whether a call asks who took part in a drop. -/
def Call.isLookup : Call → Bool
  | .reactions .. => true
  | _ => false

/-- The call that asks who took part in a drop. -/
def Drop.lookup (d : Drop) : Call := .reactions d.channel d.message d.token

/-- The lookups of participants among some acts. -/
def Act.lookups (acts : List Act) : List Call := (calls acts).filter (·.isLookup)

theorem Act.lookups_append (acts more : List Act) :
    lookups (acts ++ more) = lookups acts ++ lookups more := by
  rw [lookups, calls_append, List.filter_append]
  rfl

/-- Whether an effect asks who took part in a drop. -/
def Effect.isLookup {β : Type} : Effect β → Bool
  | .call c _ => c.isLookup
  | _ => false

namespace Program
variable {α β : Type} {W : World} {others : State → State → Prop} {σ τ : State}
  {acts : List Act}

/-- Whether a program never asks who took part in a drop. -/
def IsIncurious : Program α → Prop
  | done _ => True
  | perform e next => e.isLookup = false ∧ ∀ b, (next b).IsIncurious

theorem lookups_of_incurious {p : Program α} {r : Checked α} (h : p.IsIncurious)
    (goes : p.Goes W others σ acts r τ) : Act.lookups acts = [] := by
  induction p generalizing σ acts with
  | done result =>
    obtain ⟨rfl, -, -⟩ := goes
    rfl
  | perform e next ih =>
    obtain ⟨ready, b, left, rest, -, -, -, hrest, rfl⟩ := goes
    rw [Act.lookups_append, ih b (h.2 b) hrest, List.append_nil]
    cases e with
    | call c limit =>
      have hquiet : ¬c.isLookup = true := Bool.eq_false_iff.mp h.1
      exact List.filter_cons_of_neg hquiet
    | chore | mention | wallet | stopping =>
      show (Act.calls (List.map Act.kept _)).filter _ = []
      rw [Act.calls_map_kept]
      rfl

theorem incurious_done {result : Checked α} : (done result).IsIncurious := trivial

theorem IsIncurious.bind {p : Program α} {f : α → Program β} (hp : p.IsIncurious)
    (hf : ∀ a, (f a).IsIncurious) : (p >>= f).IsIncurious := by
  change (p.bind f).IsIncurious
  induction p with
  | done result =>
    cases result with
    | ok a => exact hf a
    | error why => exact trivial
  | perform e next ih => exact ⟨hp.1, fun b => ih b (hp.2 b)⟩

theorem IsIncurious.attempt {p : Program α} (hp : p.IsIncurious) : p.attempt.IsIncurious := by
  induction p with
  | done result => exact trivial
  | perform e next ih => exact ⟨hp.1, fun b => ih b (hp.2 b)⟩

theorem incurious_perform {γ : Type} {e : Effect γ} {g : γ → Checked α}
    (quiet : e.isLookup = false) : (perform e fun b => done (g b)).IsIncurious :=
  ⟨quiet, fun _ => trivial⟩

end Program

namespace Notifier
variable {n : Notifier} {channel : String} {preferences : Preferences}

theorem incurious_send {target kind : String} {c : Call} (quiet : c.isLookup = false) :
    (n.send target kind c).IsIncurious := by
  refine (Program.incurious_perform (e := .call c (some n.limit)) quiet).bind fun answer => ?_
  cases answer with
  | ok reply => exact Program.incurious_done
  | error why => exact (Program.incurious_perform rfl).bind fun _ => Program.incurious_done

theorem incurious_tell {recipient sender : String} {share : Amount} :
    (n.tell recipient sender share).IsIncurious :=
  Program.incurious_done.bind fun _ => (incurious_send rfl).bind fun _ => Program.incurious_done

theorem incurious_targetOf {recipient : String} {plan : Delivery} :
    (n.targetOf recipient plan).IsIncurious := by
  unfold targetOf
  split
  · exact Program.incurious_perform rfl
  · refine Program.IsIncurious.bind ((Program.incurious_perform rfl).bind fun answer => ?_) fun _ =>
      Program.incurious_done
    cases answer <;> exact Program.incurious_done

theorem incurious_tellEach {sender : String} {share : Amount} {recipients : List String} :
    (n.tellEach sender share preferences recipients).IsIncurious := by
  induction recipients with
  | nil => exact Program.incurious_done
  | cons recipient rest ih =>
    refine Program.incurious_done.bind fun preference => ?_
    by_cases direct : (Delivery.of preference).direct
    · rw [if_pos direct]
      exact incurious_tell.bind fun _ => ih.bind fun _ => Program.incurious_done
    · rw [if_neg direct]
      exact ih

theorem incurious_notifyOne {r : Transfer.Receipt} {recipient : String} :
    (n.notifyOne r channel recipient preferences).IsIncurious := by
  refine Program.incurious_done.bind fun preference => Program.incurious_done.bind fun _ =>
    (Program.incurious_perform rfl).bind fun _ => incurious_targetOf.bind fun _ =>
    (incurious_send rfl).bind fun _ => ?_
  by_cases direct : (Delivery.of preference).direct
  · rw [if_pos direct]
    exact incurious_tell.bind fun _ => Program.incurious_done
  · rw [if_neg direct]
    exact Program.incurious_done

theorem incurious_notifyMany {r : Transfer.Receipt} :
    (n.notifyMany r channel preferences).IsIncurious :=
  (Program.incurious_perform rfl).bind fun _ => Program.incurious_done.bind fun _ =>
    (incurious_send rfl).bind fun _ => incurious_tellEach.bind fun _ => Program.incurious_done

theorem incurious_preferencesFor {recipients : List String} :
    (n.preferencesFor recipients).IsIncurious := by
  unfold preferencesFor
  split
  · exact Program.incurious_done
  · refine (Program.incurious_perform rfl).attempt.bind fun found => ?_
    split
    · exact Program.incurious_done
    · exact (Program.incurious_perform rfl).bind fun _ => Program.incurious_done
    · exact Program.incurious_done

/-- Telling people about a transfer asks nobody who took part in a drop. -/
theorem incurious_notify {r : Transfer.Receipt} : (n.notify r channel none).IsIncurious := by
  refine incurious_preferencesFor.bind fun preferences => ?_
  dsimp only
  split
  · exact incurious_notifyOne.bind fun _ => (Program.incurious_perform rfl).bind fun _ =>
      Program.incurious_done
  · exact incurious_notifyMany.bind fun _ => (Program.incurious_perform rfl).bind fun _ =>
      Program.incurious_done

end Notifier

namespace Sweeper
variable {W : World} {s : Sweeper} {σ τ : State} {acts : List Act} {d : Drop}

theorem incurious_lost {id : Uuid} {status : String} : (lost id status).IsIncurious :=
  (Program.incurious_perform rfl).bind fun _ => Program.incurious_done

theorem incurious_abandon {reason told : String} {participants : Option Int} :
    (abandon d reason told participants).IsIncurious := by
  refine (Program.incurious_perform rfl).bind fun _ =>
    (Program.incurious_perform rfl).attempt.bind fun written => ?_
  split
  · exact Program.incurious_done
  · exact (Program.incurious_perform rfl).bind fun _ => Program.incurious_done
  · exact (Program.incurious_perform rfl).bind fun _ => Program.incurious_done
  · exact Program.incurious_done

theorem incurious_expire : (expire d).IsIncurious := by
  refine (Program.incurious_perform rfl).attempt.bind fun written => ?_
  split
  · exact (Program.incurious_perform rfl).bind fun _ => Program.incurious_done
  · exact incurious_lost
  · exact Program.incurious_done

theorem incurious_settle {participants : List String} :
    (s.settle d participants).IsIncurious := by
  refine (Program.incurious_perform rfl).attempt.bind fun written => ?_
  split
  · refine (Program.incurious_perform rfl).bind fun _ => ?_
    split
    · exact Notifier.incurious_notify.bind fun _ => Program.incurious_done
    · exact Program.incurious_done
  · exact incurious_lost
  · split
    · exact incurious_abandon
    · split
      · exact incurious_abandon
      · exact Program.incurious_done
  · exact Program.incurious_done

/-- A drop that is claimed is looked up at once, and never again. -/
theorem settleOne_looks {others : State → State → Prop} {id : Uuid} {r : Checked Drop.Result}
    {k : Kept} {own : List Kept} (goes : (s.settleOne id).Goes W others σ acts r τ)
    (claimed : Act.units acts = k :: own) : ∃ d, k.Claims d ∧ d.id = id ∧
      Act.lookups acts = [d.lookup] := by
  obtain ⟨ready, -, ⟨d, μ, rest, hkept, hrest, rfl⟩ | ⟨why, -, -, hrest⟩⟩ := goes.tried
  · obtain ⟨claims, hid⟩ := claims_of_keeps "claim_reactdrop" hkept
    obtain ⟨_, answer, more, -, -, hmore, rfl⟩ := Program.goes_called.mp hrest
    obtain rfl : _ = k := (List.cons.inj claimed).1
    have hquiet : Act.lookups more = [] := by
      refine Program.lookups_of_incurious (Program.IsIncurious.bind Program.incurious_done
        fun answer => ?_) hmore
      cases answer with
      | error why => exact incurious_abandon
      | ok reacted =>
        dsimp only
        split
        · exact incurious_expire
        · exact incurious_settle
    exact ⟨d, claims, hid, congrArg (d.lookup :: ·) hquiet⟩
  · exfalso
    split at hrest
    · obtain ⟨rfl, -, -⟩ := hrest
      cases claimed
    · obtain ⟨rfl, -, -⟩ := hrest
      cases claimed
    · next undone => cases undone

/-! ### One drop -/

/-- A drop has had its turn: it is reported and over, its participants have been looked up once, and
no other drop was touched. -/
structure HasTurn (d : Drop) (σ : State) (acts : List Act) (r : Checked Drop.Result) (τ : State) :
    Prop where
  reported : ∃ result, r = .ok result ∧ result.drop = d.id
  isOver : ∃ row, τ.store.drop? d.id = some row ∧ row.IsOver
  others : ∀ id, id ≠ d.id → τ.store.drop? id = σ.store.drop? id
  looked : Act.lookups acts = [d.lookup]

/-- The drops of a list have had their turns: each is reported and over, its participants have been
looked up once and in its turn, and no other drop was touched. -/
structure HaveTurns (ds : List Drop) (σ : State) (acts : List Act)
    (r : Checked (List Drop.Result)) (τ : State) : Prop where
  reported : ∃ results, r = .ok results ∧ results.map (·.drop) = ds.map (·.id)
  isOver : ∀ d ∈ ds, ∃ row, τ.store.drop? d.id = some row ∧ row.IsOver
  others : ∀ id, id ∉ ds.map (·.id) → τ.store.drop? id = σ.store.drop? id
  looked : Act.lookups acts = ds.map Drop.lookup

variable {r : Checked Drop.Result}

/-- However the settlement of a claimed drop ends, it ends with a report and the drop is over, as
long as the store loses nothing. -/
theorem Finished.isOver {own : List Kept} (saves : ∀ operation, ¬W.Loses operation)
    (mentions : W.Mentions) (few : ¬W.Overflows) (h : σ.Reached) (known : σ.Knows d)
    (settling : d.has .settling = true) (finished : Finished W s d σ own r τ)
    (steps : ∀ k ∈ own, State.Run k.before k.after) :
    (∃ result, r = .ok result) ∧ ∃ row, τ.store.drop? d.id = some row ∧ row.IsOver := by
  have hended {k : Kept} {row : Drop} (hk : k ∈ own) (others : State.Run σ k.before)
      (ends : k.Ends d.id row) (later : State.Run k.after τ) :
      ∃ row, τ.store.drop? d.id = some row ∧ row.IsOver :=
    ⟨row, ends.stays ((h.run others).run (steps k hk)) later, ends.ended⟩
  have hlost {μ : State} {row : Drop} (others : State.Run σ μ)
      (found : μ.store.drop? d.id = some row) (elsewhere : row.has .settling = false)
      (later : State.Run μ τ) : ∃ row, τ.store.drop? d.id = some row ∧ row.IsOver :=
    have hstays := stays_of_elsewhere h known settling others found elsewhere later
    ⟨row, hstays.2, hstays.1⟩
  cases finished with
  | paid others pays asks heard later =>
    obtain ⟨row, recipients, moved, time, ends⟩ := pays.ends
    refine ⟨?_, hended List.mem_cons_self others ends later⟩
    cases r with
    | ok result => exact ⟨result, rfl⟩
    | error why => exact absurd mentions heard
  | expired others closes later | failed _ others closes later =>
    obtain ⟨row, ends⟩ := closes.ends
    exact ⟨⟨_, rfl⟩, hended List.mem_cons_self others ends later⟩
  | lost others found elsewhere later => exact ⟨⟨_, rfl⟩, hlost others found elsewhere later⟩
  | overtaken _ others found elsewhere later =>
    exact ⟨⟨_, rfl⟩, hlost others found elsewhere later⟩
  | unrecorded _ loses | unexpired loses => exact absurd loses (saves _)
  | overflown overflows => exact absurd overflows few

section Undisturbed
variable (honest : s.execute = Ledger.execute) (saves : ∀ operation, ¬W.Loses operation)
  (mentions : W.Mentions) (few : ¬W.Overflows)
include honest saves mentions few

/-- A pending drop that nobody else touches has its turn, whatever the platform answers. -/
theorem settleOne_turn (h : σ.Reached) (awaits : σ.Awaits d)
    (goes : (s.settleOne d.id).Goes W State.Calm σ acts r τ) : HasTurn d σ acts r τ := by
  obtain ⟨hfound, pending⟩ := awaits
  have follows := goes.follows
  have hsteps := goes.plays_calm.steps
  have attempted := settleOne_plays honest h goes.plays_calm
  generalize hunits : Act.units acts = units at follows hsteps attempted
  cases attempted with
  | taken _ found taken =>
    rw [Store.drop?_congr d.id follows, hfound] at found
    cases found
    cases pending.symm.trans taken
  | missing _ absent =>
    rw [Store.drop?_congr d.id follows, hfound] at absent
    cases absent
  | unclaimed loses => exact absurd loses (saves _)
  | @claimed _ k e own _ others claims same finished =>
    have hclaim := h.run others
    have settling : e.has .settling = true := by
      cases claims
      rfl
    obtain ⟨⟨result, rfl⟩, isOver⟩ := finished.isOver saves mentions few
      (hclaim.run (hsteps k List.mem_cons_self)) (claims.knows hclaim) settling
      fun q hq => hsteps q (List.mem_cons_of_mem _ hq)
    obtain ⟨hreport, minds, -⟩ := (settleOne_plays honest h goes.plays_calm).reported
    rw [hunits] at minds
    rw [same] at isOver
    obtain ⟨e, claims, same, hlooked⟩ := settleOne_looks goes hunits
    refine ⟨⟨result, rfl, hreport⟩, isOver, fun id different => follows.drop? minds different, ?_⟩
    obtain @⟨row, time, found, -, -⟩ := claims
    change row.id = d.id at same
    rw [Store.drop?_congr row.id follows.1, same, hfound] at found
    obtain rfl := Option.some.inj found
    exact hlooked

/-- The drops of a list that nobody else touches have their turns, one after the other. -/
theorem settleEach_turns (goesOn : W.GoesOn) {ds : List Drop} {r : Checked (List Drop.Result)}
    (h : σ.Reached) (awaits : ∀ d ∈ ds, σ.Awaits d) (once : (ds.map (·.id)).Nodup)
    (goes : (s.settleEach ds).Goes W State.Calm σ acts r τ) : HaveTurns ds σ acts r τ := by
  induction ds generalizing σ τ acts r with
  | nil =>
    obtain ⟨rfl, rfl, rfl⟩ := goes
    exact ⟨⟨[], rfl, rfl⟩, List.forall_mem_nil _, fun _ _ => rfl, rfl⟩
  | cons d rest ih =>
    obtain ⟨asked, stop, calm, hstop, hrest⟩ := (Program.goes_asked rfl).mp goes
    obtain rfl := goesOn stop hstop
    replace hrest : ((Program.within [(.drop, d.id.text)] (s.settleOne d.id)) >>= fun result =>
        s.settleEach rest >>= fun more => pure (result :: more)).Goes W State.Calm asked acts r τ :=
      hrest
    obtain ⟨hd, hawaits⟩ := List.forall_mem_cons.mp awaits
    obtain ⟨hnew, honce⟩ := List.nodup_cons.mp once
    have turn {μ : State} {first : List Act} {own : Checked Drop.Result}
        (hwithin : (Program.within [(.drop, d.id.text)] (s.settleOne d.id)).Goes W State.Calm asked
          first own μ) : HasTurn d σ first own μ ∧ State.Run σ μ := by
      obtain ⟨ready, left, before, hone, later⟩ := hwithin.within
      have hready (id : Uuid) : ready.store.drop? id = σ.store.drop? id :=
        (before.drop? id).trans (calm.drop? id)
      have hrun := calm.run.trans before.run
      obtain ⟨reported, ⟨row, found, isOver⟩, others, looked⟩ :=
        settleOne_turn honest saves mentions few (h.run hrun)
          ((State.awaits_congr (hready d.id)).mpr hd) hone
      exact ⟨⟨reported, ⟨row, (later.drop? d.id).trans found, isOver⟩, fun id different =>
        ((later.drop? id).trans (others id different)).trans (hready id), looked⟩,
        hrun.trans (hone.plays_calm.run.trans later.run)⟩
    rcases Program.goes_bind.mp hrest with
      ⟨why, hwithin, rfl⟩ | ⟨result, μ, first, second, hwithin, hnext, rfl⟩
    · obtain ⟨⟨⟨_, hnever, -⟩, -, -, -⟩, -⟩ := turn hwithin
      cases hnever
    · obtain ⟨⟨⟨_, heq, named⟩, ⟨row, found, isOver⟩, others, looked⟩, hleft⟩ := turn hwithin
      obtain rfl := Except.ok.inj heq
      have hothers : ∀ e ∈ rest, μ.store.drop? e.id = σ.store.drop? e.id := fun e he =>
        others e.id fun same => hnew (List.mem_map.mpr ⟨e, he, same⟩)
      have turns {r : Checked (List Drop.Result)} {more : List Act} {ν : State}
          (heach : (s.settleEach rest).Goes W State.Calm μ more r ν) :
          HaveTurns rest μ more r ν :=
        ih (h.run hleft) (fun e he => (State.awaits_congr (hothers e he)).mpr (hawaits e he)) honce
          heach
      rcases Program.goes_bind.mp hnext with
        ⟨why, heach, rfl⟩ | ⟨results, ν, more, _, heach, ⟨rfl, rfl, rfl⟩, rfl⟩
      · obtain ⟨_, hnever, -⟩ := (turns heach).reported
        cases hnever
      · obtain ⟨⟨_, heq, hnamed⟩, hover, hleave, hlooked⟩ := turns heach
        obtain rfl := Except.ok.inj heq
        refine ⟨⟨_, rfl, ?_⟩, List.forall_mem_cons.mpr ⟨⟨row, ?_, isOver⟩, hover⟩, ?_, ?_⟩
        · rw [List.map_cons, List.map_cons, named, hnamed]
        · rw [hleave d.id hnew]
          exact found
        · intro id hid
          rw [List.map_cons, List.mem_cons, not_or] at hid
          rw [hleave id hid.2, others id hid.1]
        · rw [List.append_nil, Act.lookups_append, looked, hlooked]
          rfl

end Undisturbed

/-! ### Whole sweeps -/

/-- A sweeper's clock shows what can be stored, nothing before some moment, and moments that go back
far enough to tell what was interrupted. -/
structure Reckons (s : Sweeper) (W : World) (t : Moment) : Prop where
  since : ∀ now, W _ (.chore .now) now → t.instant ≤ now.instant
  storable : ∀ now, W _ (.chore .now) now → ∃ asOf, now.IsStoredAs asOf
  reaches : ∃ length, s.stalledAfter.seconds = .ok length ∧ ∀ now, W _ (.chore .now) now →
    ∃ cutoff limit, now.sub? length = some cutoff ∧ cutoff.IsStoredAs limit

/-- What is read of drops whose statuses are known are these drops. -/
theorem mapM_readDrop {ds : List Drop} (known : ∀ d ∈ ds, ∃ status, d.status = .known status) :
    ds.mapM readDrop = .ok ds := by
  induction ds with
  | nil => rfl
  | cons d rest ih =>
    obtain ⟨⟨status, hstatus⟩, hrest⟩ := List.forall_mem_cons.mp known
    have hd : readDrop d = .ok d := by
      unfold readDrop
      rw [hstatus]
      rfl
    rw [List.mapM_cons, hd, ih hrest]
    rfl

theorem mapM_readDrop_due (t : Store) (asOf : Moment) (limit : Option Int) :
    (t.due asOf limit).mapM readDrop = .ok (t.due asOf limit) :=
  mapM_readDrop fun _ hd =>
    ⟨_, eq_of_beq (Bool.and_eq_true_iff.mp (Store.of_mem_due hd).2).1⟩

/-- The work that asks for a batch. -/
def askDue (s : Sweeper) (startedAt : Moment) : Work (List Drop) := do
  Work.check ((← findDue startedAt (some s.batch)).mapM readDrop)

theorem askDue_saved {startedAt asOf : Moment} {t : Store} {P : Fault → Prop}
    (timed : startedAt.IsStoredAs asOf) (positive : 1 ≤ s.batch) (fits : s.batch ≤ columnMax) :
    (s.askDue startedAt).FailsOnly t P := by
  refine Work.failsOnly_of_gives fun desk hs => ⟨t.due asOf (some s.batch), desk, ?_⟩
  refine Work.gives_bind.mpr ⟨_, desk, ?_, Work.gives_check.mpr ⟨mapM_readDrop_due t _ _, rfl⟩⟩
  unfold findDue
  simp only [Work.gives_bind, Work.gives_stored, Work.gives_column, Work.gives_read]
  exact ⟨asOf, desk, ⟨timed, rfl⟩, ⟨⟩, desk, ⟨⟨t, hs⟩, ⟨by omega, fits⟩, rfl⟩, t, hs, rfl, rfl⟩

theorem findDue_fits {asOf : Moment} {n : Int} {desk after : Desk} {due : List Drop}
    (h : (findDue asOf (some n)).Gives desk due after) : n ≤ columnMax := by
  unfold findDue at h
  simp only [Work.gives_bind, Work.gives_stored, Work.gives_column] at h
  obtain ⟨_, _, -, _, _, ⟨-, hfits, -⟩, -⟩ := h
  exact hfits.2

/-- A batch that is too large to be counted in a query is not asked for. -/
theorem askDue_beyond {startedAt asOf : Moment} {t : Store} (timed : startedAt.IsStoredAs asOf)
    (huge : columnMax < s.batch) : (s.askDue startedAt).FailsOnly t (· = .beyond .stored) := by
  have hstored : (Work.stored startedAt).FailsOnly t (· = .beyond .stored) :=
    Work.failsOnly_of_gives fun desk _ => ⟨asOf, desk, Work.gives_stored.mpr ⟨timed, rfl⟩⟩
  have hfind : (findDue startedAt (some s.batch)).FailsOnly t (· = .beyond .stored) :=
    hstored.ask Work.reads_stored fun utc =>
      Work.FailsOnly.ask (f := fun _ => Work.read (·.due utc (some s.batch)))
        (Work.failsOnly_column fun _ => rfl) Work.reads_column fun _ => Work.failsOnly_read
  exact hfind.bind fun desk due after _ hfound => absurd (findDue_fits hfound) (Int.not_le.mpr huge)

/-- How a sweep goes whose store loses nothing: it cannot ask for its batch, or it goes through it.
If others leave the drops that wait alone, so has the sweep by then. -/
inductive Passes (W : World) (others : State → State → Prop) (s : Sweeper) (asOf : Moment)
    (σ : State) : List Act → Checked Drop.Sweep → State → Prop
  /-- The size of the batch fits into no query. -/
  | unasked {stalled : Kept} {τ : State} (huge : columnMax < s.batch)
      (waits : State.LeavesWaiting others → τ.WaitsAs σ) :
      Passes W others s asOf σ [.kept stalled] (.error (.beyond .stored)) τ
  | asked {stalled asks : Kept} {middle : List Act} {left τ : State} {startedAt : Moment}
      {each : Checked (List Drop.Result)} (interrupted : Nat) (fits : s.batch ≤ columnMax)
      (timed : startedAt.IsStoredAs asOf) (unchanged : asks.Asks) (run : State.Run σ asks.after)
      (waits : State.LeavesWaiting others → asks.after.WaitsAs σ)
      (goes : (s.settleEach (asks.after.store.due asOf (some s.batch))).Goes W others asks.after
        middle each left) (later : others left τ) :
      Passes W others s asOf σ (.kept stalled :: .kept asks :: middle)
        (each.map fun results => ⟨startedAt, results, interrupted⟩) τ

theorem FailsStalled.waitsAs {asOf utc : Moment} {length : Duration} (h : σ.Reached)
    (later : τ.Reached) (fails : σ.store.FailsStalled τ.store asOf length utc) : τ.WaitsAs σ := by
  intro d
  rw [State.awaits_iff h, State.awaits_iff later, fails.drops, List.mem_map]
  refine and_congr_left fun pending => ⟨?_, fun hd => ⟨d, hd, if_neg ?_⟩⟩
  · rintro ⟨e, he, rfl⟩
    by_cases hstalled : e.isStalled asOf length = true
    · rw [if_pos hstalled] at pending
      cases pending
    · rw [if_neg hstalled]
      exact he
  · intro hstalled
    have hsettling := eq_of_beq (Bool.and_eq_true_iff.mp hstalled).1
    have hpending := eq_of_beq pending
    cases hsettling.symm.trans hpending

/-- A sweep fails what was interrupted, which no drop that waits was, and then asks for its
batch. -/
theorem sweep_passes {others : State → State → Prop} {t : Moment}
    (runs : ∀ σ τ, others σ τ → State.Run σ τ) (still : ∀ σ, others σ σ)
    (saves : ∀ operation, ¬W.Loses operation) (reckons : s.Reckons W t) (positive : 1 ≤ s.batch)
    (h : σ.Reached) {r : Checked Drop.Sweep} (goes : s.sweep.Goes W others σ acts r τ) :
    ∃ asOf, t.instant ≤ asOf.instant ∧ Passes W others s asOf σ acts r τ := by
  obtain ⟨begun, startedAt, before, hnow, hstalled⟩ := (Program.goes_asked rfl).mp goes
  obtain ⟨asOf, timed⟩ := reckons.storable _ hnow
  obtain ⟨length, hlength, hreaches⟩ := reckons.reaches
  obtain ⟨cutoff, limit, hcutoff, hlimit⟩ := hreaches _ hnow
  have hfails {μ : State} (hμ : μ.Reached) {desk : Desk} (hs : desk.Holds μ.store) :=
    failStalled_gives hμ.idsDiffer hs hlength hcutoff hlimit timed
  refine ⟨asOf, ?_, ?_⟩
  · rw [Moment.instant_toUtc? timed.2]
    exact reckons.since _ hnow
  rcases hstalled.needed with ⟨why, rfl, meanwhile, hworld, hundone, rfl⟩ |
    ⟨ready, interrupted, μ, _, meanwhile, hfailed, hdue, rfl⟩
  · have hreached := h.run ((runs _ _ before).trans (runs _ _ meanwhile))
    rcases hundone.faults (P := fun _ => False) (Work.failsOnly_of_gives fun desk hs =>
      have ⟨failed, after, _, hgives, _⟩ := hfails hreached hs
      ⟨failed, after, hgives⟩) with ⟨cause, rfl⟩ | ⟨hnever, -⟩
    · exact absurd ⟨_, _, cause, hworld⟩ (saves _)
    · exact hnever.elim
  have hrun := (runs _ _ before).trans (runs _ _ meanwhile)
  have hready := h.run hrun
  have hμ := hready.run hfailed.run
  have waits (leaves : State.LeavesWaiting others) : μ.WaitsAs σ := by
    obtain ⟨_, desk, after, -, hgives, hafter, -⟩ := hfailed
    obtain ⟨_, _, left, hfailed, hleft, fails⟩ := hfails hready (ready.holds_begun desk)
    obtain ⟨-, rfl⟩ := hgives.unique hfailed
    obtain rfl := hafter.unique hleft
    exact (FailsStalled.waitsAs hready hμ fails).trans
      ((leaves _ _ meanwhile).trans (leaves _ _ before))
  replace hdue : (Program.transact "find_due_reactdrops" (s.askDue startedAt) >>= _).Goes W _ μ _
    r τ := hdue
  rcases hdue.needed with ⟨why, rfl, between, hworld, hundone, rfl⟩ |
    ⟨found, due, ν, _, between, hread, hbatch, rfl⟩
  · by_cases fits : s.batch ≤ columnMax
    · rcases hundone.faults (P := fun _ => False) (askDue_saved timed positive fits) with
        ⟨cause, rfl⟩ | ⟨hnever, -⟩
      · exact absurd ⟨_, _, cause, hworld⟩ (saves _)
      · exact hnever.elim
    · rcases hundone.faults (askDue_beyond timed (Int.not_le.mp fits)) with
        ⟨cause, rfl⟩ | ⟨rfl, -⟩
      · exact absurd ⟨_, _, cause, hworld⟩ (saves _)
      · exact .unasked (Int.not_le.mp fits) fun leaves =>
          (leaves _ _ between).trans (waits leaves)
  obtain ⟨hasks, utc, htimed, rfl⟩ := due_of_keeps hread
  obtain rfl : asOf = utc := Option.some.inj (timed.2.symm.trans htimed.2)
  have fits : s.batch ≤ columnMax := by
    obtain ⟨_, _, _, -, hgives, -⟩ := hread
    obtain ⟨_, _, hfound, -⟩ := Work.gives_bind.mp hgives
    exact findDue_fits hfound
  have hν : State.Run σ ν :=
    (hrun.trans hfailed.run).trans ((runs _ _ between).trans hread.run)
  have hwaits (leaves : State.LeavesWaiting others) : ν.WaitsAs σ := fun d =>
    (State.awaits_congr (by rw [hasks])).trans (((leaves _ _ between).trans (waits leaves)) d)
  have unchanged : Kept.Asks ⟨"find_due_reactdrops", found, ν⟩ := hasks
  rw [← hasks] at hbatch
  rcases Program.goes_bind.mp hbatch with
    ⟨why, heach, rfl⟩ | ⟨results, left, middle, last, heach, hlast, rfl⟩
  · exact .asked 0 fits timed unchanged hν hwaits heach (still _)
  · have hend : last = [] ∧ .ok ⟨startedAt, results, interrupted.length⟩ = r ∧ others left τ := by
      dsimp only at hlast
      split at hlast
      · obtain ⟨_, -, later, -, rfl, rfl, rfl⟩ := (Program.goes_asked rfl).mp hlast
        exact ⟨rfl, rfl, later⟩
      · obtain ⟨rfl, rfl, rfl⟩ := hlast
        exact ⟨rfl, rfl, still _⟩
    obtain ⟨rfl, rfl, later⟩ := hend
    rw [List.append_nil]
    exact .asked interrupted.length fits timed unchanged hν hwaits heach later

end Sweeper
end TipJar
