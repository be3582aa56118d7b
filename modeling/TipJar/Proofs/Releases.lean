import TipJar.Proofs.Coverage
import TipJar.Proofs.Payability
import TipJar.Proofs.Queues

/-! What each step of a drop frees.

What can be spent is stored nowhere. It is the balance without the holds, the holds
are summed up from the drops, and the difference is cut off at nothing. So a step of
a drop shows in it in two ways at most, through the hold that it ends and through the
shares that it pays, and exactly there: as long as holds are covered, nothing is cut
off. All other accounts are left alone but for the shares they get, which are added
exactly where there is room for them. -/
namespace TipJar
open Ledger

namespace Ledger.Store
variable {s t : Store} {name : String}

/-! ### Holds that end -/

/-- A drop that holds nothing any more takes its amount off what its initiator's drops hold. -/
theorem held_updateDrop_ended {id : Uuid} {row : Drop} {f : Drop → Drop} (hi : s.IdsDiffer)
    (found : s.drop? id = some row) (holding : row.isHolding = true)
    (ended : ∀ d, (f d).isHolding = false) (name : String) :
    ((s.updateDrop id f).held name none).units +
        (if row.initiator = name then row.amount.units else 0) = (s.held name none).units := by
  have hsum := Rows.sum_update Drop.id (f := f) (Drop.heldOf name none) hi
    (mem_of_drop? s id found) (id_of_drop? s id found)
  have hafter : (f row).heldOf name none = 0 := by simp [Drop.heldOf, ended]
  rw [Drop.heldOf_of_holding holding, hafter, Nat.add_zero] at hsum
  rw [units_held, units_held]
  exact hsum

/-- Drops that hold nothing any more take all their amounts off. -/
theorem held_map_ended {p : Drop → Bool} {f : Drop → Drop}
    (holding : ∀ d ∈ s.drops, p d = true → d.isHolding = true)
    (ended : ∀ d, (f d).isHolding = false)
    (drops : t.drops = s.drops.map fun d => if p d then f d else d) (name : String) :
    (t.held name none).units +
        ((s.drops.filter fun d => p d && d.initiator == name).map (·.amount.units)).sum =
      (s.held name none).units := by
  rw [units_held, units_held, drops]
  generalize s.drops = rows at holding
  induction rows with
  | nil => rfl
  | cons d rest ih =>
    rw [List.forall_mem_cons] at holding
    have hrest := ih holding.2
    rw [List.map_cons, List.map_cons, List.sum_cons, List.map_cons, List.sum_cons]
    cases hp : p d with
    | false =>
      rw [List.filter_cons_of_neg (by simp [hp]), if_neg Bool.false_ne_true]
      omega
    | true =>
      have hafter : (f d).heldOf name none = 0 := by simp [Drop.heldOf, ended]
      rw [if_pos rfl, hafter, Drop.heldOf_of_holding (holding.1 hp)]
      by_cases hname : d.initiator = name
      · rw [if_pos hname, List.filter_cons_of_pos (by simp [hp, hname]), List.map_cons,
          List.sum_cons]
        omega
      · rw [if_neg hname, List.filter_cons_of_neg (by simp [hname])]
        omega

/-! ### What is freed -/

/-- What a step makes of balances and holds: one holder can spend so much more, the others with room
for it have been paid so much, and nothing else of what others have, hold or can spend is
different. -/
structure Frees (s t : Store) (holder : String) (freed : Int) (paid : String → Nat) : Prop where
  available : ((t.view holder none).available.units : Int) =
    (s.view holder none).available.units + freed
  balances : ∀ name, name ≠ holder → ((s.balance name).units + paid name : Nat) ≤ columnMax →
    (t.balance name).units = (s.balance name).units + paid name
  holds : ∀ name, name ≠ holder → (t.held name none).units = (s.held name none).units
  others : ∀ name, name ≠ holder → ((s.balance name).units + paid name : Nat) ≤ columnMax →
    (t.view name none).available.units = (s.view name none).available.units + paid name

/-- Where holds are covered, nothing is cut off from what can be spent. -/
theorem available_add_held (covered : (s.held name none).units ≤ (s.balance name).units) :
    (s.view name none).available.units + (s.held name none).units = (s.balance name).units := by
  rw [Balance.units_available]
  exact Nat.sub_add_cancel covered

/-- What is freed can be read off balances and holds, as long as the holder's are still covered. -/
theorem Covered.frees {holder : String} {freed : Int} {paid : String → Nat} (covered : s.Covered)
    (still : (t.held holder none).units ≤ (t.balance holder).units)
    (moved : ((t.balance holder).units : Int) - (t.held holder none).units =
      (s.balance holder).units - (s.held holder none).units + freed)
    (balances : ∀ name, name ≠ holder → ((s.balance name).units + paid name : Nat) ≤ columnMax →
      (t.balance name).units = (s.balance name).units + paid name)
    (holds : ∀ name, name ≠ holder → (t.held name none).units = (s.held name none).units) :
    s.Frees t holder freed paid where
  available := by
    have hbefore := available_add_held (covered holder)
    have hafter := available_add_held still
    omega
  balances := balances
  holds := holds
  others name hname room := by
    have hcovered := covered name
    have hbalance := balances name hname room
    have hheld := holds name hname
    have hbefore := available_add_held hcovered
    have hafter : (t.view name none).available.units + (t.held name none).units =
        (t.balance name).units := available_add_held (by omega)
    omega

/-- A new drop takes its amount off what its initiator can spend. -/
theorem Covered.frees_created {desk : Desk} {r : DropRequest} {initiator : String}
    {openedAt deadline : Moment} (covered : s.Covered)
    (creates : desk.CanCreate s r initiator openedAt deadline) (id : Uuid) :
    s.Frees ((s.withAccount initiator).withDrop (r.row id initiator openedAt deadline)) initiator
      (-r.amount.units) fun _ => 0 := by
  have hbalance (name : String) : ((s.withAccount initiator).withDrop
      (r.row id initiator openedAt deadline)).balance name = s.balance name :=
    balance_withAccount s initiator name
  have hheld (name : String) : (((s.withAccount initiator).withDrop
      (r.row id initiator openedAt deadline)).held name none).units =
        (s.held name none).units + if initiator = name then r.amount.units else 0 := by
    unfold withDrop
    rw [held_append, Drop.heldOf_of_holding rfl,
      held_congr name none (s.drops_withAccount initiator)]
    rfl
  have hown := hheld initiator
  rw [if_pos rfl] at hown
  have hroom := creates.covered
  refine covered.frees ?_ ?_ (fun name _ _ => congrArg Amount.units (hbalance name))
    fun name hname => ?_
  · rw [hbalance, hown]
    exact hroom
  · rw [hbalance, hown]
    omega
  · rw [hheld, if_neg (Ne.symm hname), Nat.add_zero]

/-- A drop that is claimed changes nothing about what can be spent. -/
theorem Covered.frees_claimed {id : Uuid} {row : Drop} (covered : s.Covered) (hi : s.IdsDiffer)
    (found : s.drop? id = some row) (pending : row.has .pending = true) (time : Moment) :
    s.Frees (s.updateDrop id (·.asClaimed time)) row.initiator 0 fun _ => 0 := by
  have hheld := held_claimed hi found pending time
  have hbalance (name : String) :
      (s.updateDrop id (·.asClaimed time)).balance name = s.balance name := rfl
  refine covered.frees ?_ ?_ (fun name _ _ => rfl) fun name _ => hheld name
  · rw [hheld, hbalance]
    exact covered row.initiator
  · rw [hheld, hbalance, Int.add_zero]

/-- A hold that ends frees its amount, and nobody is paid. -/
theorem Covered.frees_ended {id : Uuid} {row : Drop} {f : Drop → Drop} (covered : s.Covered)
    (hi : s.IdsDiffer) (found : s.drop? id = some row) (holding : row.isHolding = true)
    (ended : ∀ d, (f d).isHolding = false) :
    s.Frees (s.updateDrop id f) row.initiator row.amount.units fun _ => 0 := by
  have hheld := held_updateDrop_ended hi found holding ended
  have hown := hheld row.initiator
  rw [if_pos rfl] at hown
  have hcovered := covered row.initiator
  have hbalance (name : String) : (s.updateDrop id f).balance name = s.balance name := rfl
  refine covered.frees ?_ ?_ (fun name _ _ => rfl) fun name hname => ?_
  · rw [hbalance]
    omega
  · rw [hbalance]
    omega
  · rw [← hheld name, if_neg (Ne.symm hname), Nat.add_zero]

/-- A drop that is paid out frees what does not go to its participants. -/
theorem PaysOut.frees {d : Drop} {participants : List String} {event : Uuid} {time : Moment}
    (pays : s.PaysOut t d participants event time) (covered : s.Covered) (hi : s.IdsDiffer)
    (hd : d ∈ s.drops) (holding : d.isHolding = true) :
    s.Frees t d.initiator
      (d.amount.units - participants.length * (d.amount.units / participants.length))
      fun name => if name ∈ participants then d.amount.units / participants.length else 0 := by
  have hdrops : t.drops = (s.updateDrop d.id fun _ => d.asSettled event participants.length
      ⟨participants.length * (d.amount.units / participants.length)⟩ time).drops := by
    rw [pays.drops]
    unfold updateDrop
    simp only [beq_iff_eq]
  have hheld (name : String) : (t.held name none).units +
      (if d.initiator = name then d.amount.units else 0) = (s.held name none).units := by
    rw [held_congr name none hdrops]
    exact held_updateDrop_ended hi (drop?_of_mem hi hd) holding
      (fun _ => d.isHolding_asSettled ..) name
  have hown := hheld d.initiator
  rw [if_pos rfl] at hown
  have hlost := pays.lost
  have hcovered := covered d.initiator
  have hshares : participants.length * (d.amount.units / participants.length) ≤ d.amount.units :=
    Nat.mul_div_le _ _
  refine covered.frees ?_ ?_ (fun name hname room => ?_) fun name hname => ?_
  · omega
  · rw [← Int.natCast_ediv]
    omega
  · by_cases hpaid : name ∈ participants
    · rw [if_pos hpaid] at room ⊢
      exact pays.gained name hpaid room
    · rw [if_neg hpaid, Nat.add_zero]
      unfold balance
      rw [pays.others name fun h => (List.mem_cons.mp h).elim hname hpaid]
  · rw [← hheld name, if_neg (Ne.symm hname), Nat.add_zero]

end Ledger.Store

/-! ### Interrupted settlements -/

/-- Whether a drop has been settling for a length of time, or longer. -/
def Drop.isStalled (d : Drop) (asOf : Moment) (length : Duration) : Bool :=
  d.has .settling &&
    d.claimedAt.any fun claimedAt => claimedAt.instant ≤ asOf.instant - length.micros

namespace Ledger

/-- What the stalled drops of an account hold. -/
def Store.stalledUnits (s : Store) (asOf : Moment) (length : Duration) (name : String) : Nat :=
  ((s.drops.filter fun d => d.isStalled asOf length && d.initiator == name).map
    (·.amount.units)).sum

/-- The tables with the drops of some identifiers changed. -/
def Store.updateDrops (s : Store) (ids : List Uuid) (f : Drop → Drop) : Store :=
  { s with drops := s.drops.map fun d => if d.id ∈ ids then f d else d }

namespace Store
variable {s : Store}

theorem updateDrops_nil (s : Store) (f : Drop → Drop) : s.updateDrops [] f = s := by
  unfold updateDrops
  simp

/-- One drop after the other is all of them, as long as none comes twice. -/
theorem updateDrops_updateDrop {id : Uuid} {ids : List Uuid} {f : Drop → Drop}
    (hf : ∀ d, (f d).id = d.id) (fresh : id ∉ ids) :
    (s.updateDrop id f).updateDrops ids f = s.updateDrops (id :: ids) f := by
  unfold updateDrop updateDrops
  congr 1
  rw [List.map_map]
  refine List.map_congr_left fun d _ => ?_
  by_cases h : d.id = id
  · simp [h, hf, fresh]
  · simp [h]

/-- The stalled drops at a cutoff are those that have been settling for long enough. -/
theorem mem_stalled {asOf cutoff limit : Moment} {length : Duration} {d : Drop}
    (hcutoff : asOf.sub? length = some cutoff) (hlimit : cutoff.IsStoredAs limit) :
    d ∈ s.stalled limit ↔ d ∈ s.drops ∧ d.isStalled asOf length = true := by
  have hinstant : limit.instant = asOf.instant - length.micros := by
    obtain ⟨hwall, hoffset⟩ := Moment.of?_wall hcutoff
    rw [Moment.instant_toUtc? hlimit.2]
    unfold Moment.instant
    rw [hwall, hoffset]
    omega
  unfold stalled
  rw [(perm_sortedBy _ _).mem_iff, List.mem_filter]
  refine and_congr_right fun _ => ?_
  unfold Drop.isStalled
  rw [hinstant]
  cases d.claimedAt <;> rfl

end Store

/-- Fails one drop whose settlement was interrupted. -/
def failInterrupted (asOf : Moment) (d : Drop) : Work Drop := do
  let failed ← markFailed d.id interruptedReason asOf none
  Work.note .error "batch.reactdrop_repository" "reactdrop_settlement_failed"
    [("reactdrop_id", .text d.id.text), ("reason", .text interruptedReason),
     ("initiator", .text d.initiator), ("amount", .nat d.amount.units)]
  return failed

section Stalled
variable {asOf utc : Moment} {desk : Desk} {s : Store}

theorem failInterrupted_gives {d row : Drop} (timed : asOf.IsStoredAs utc) (hs : desk.Holds s)
    (found : s.drop? d.id = some row) (settling : row.has .settling = true) :
    ∃ failed after, (failInterrupted asOf d).Gives desk failed after ∧
      after.Holds (s.updateDrop d.id (·.asFailed interruptedReason none utc)) := by
  have hkept : keptReason interruptedReason = interruptedReason := by decide
  have hfits : ∀ n ∈ (none : Option Int), -columnMax - 1 ≤ n ∧ n ≤ columnMax := nofun
  have hfailed : (markFailed d.id interruptedReason asOf none).Gives desk
      (row.asFailed interruptedReason none utc)
      (desk.keep (s.updateDrop d.id (·.asFailed interruptedReason none utc))) :=
    markFailed_gives.mpr
      ⟨utc, s, row, timed, hfits, hs, found, settling, by rw [hkept], by rw [hkept]⟩
  refine ⟨_, _, Work.gives_bind.mpr ⟨_, _, hfailed, Work.gives_bind.mpr
    ⟨⟨⟩, _, Work.gives_note.mpr rfl, Work.gives_pure.mpr ⟨rfl, rfl⟩⟩⟩, ?_⟩
  exact (hs.keep _).note ..

/-- Drops that are all settling are all failed. None is failed twice, so each is still settling when
its turn comes. -/
theorem failEach_gives {ds : List Drop} (timed : asOf.IsStoredAs utc) (hs : desk.Holds s)
    (different : (ds.map (·.id)).Nodup)
    (there : ∀ d ∈ ds, ∃ row, s.drop? d.id = some row ∧ row.has .settling = true) :
    ∃ failed after, (ds.mapM (failInterrupted asOf)).Gives desk failed after ∧
      after.Holds (s.updateDrops (ds.map (·.id)) (·.asFailed interruptedReason none utc)) := by
  induction ds generalizing desk s with
  | nil =>
    refine ⟨[], desk, Work.gives_mapM_nil.mpr ⟨rfl, rfl⟩, ?_⟩
    rw [List.map_nil, Store.updateDrops_nil]
    exact hs
  | cons d rest ih =>
    rw [List.map_cons, List.nodup_cons] at different
    rw [List.forall_mem_cons] at there
    obtain ⟨row, found, settling⟩ := there.1
    have hid : ∀ e : Drop, (e.asFailed interruptedReason none utc).id = e.id := fun _ => rfl
    obtain ⟨first, mid, hfirst, hmid⟩ := failInterrupted_gives timed hs found settling
    have hrest : ∀ e ∈ rest, ∃ row,
        (s.updateDrop d.id (·.asFailed interruptedReason none utc)).drop? e.id = some row ∧
          row.has .settling = true := by
      intro e he
      obtain ⟨row, found, settling⟩ := there.2 e he
      have hother : e.id ≠ d.id := fun h => different.1 (h ▸ List.mem_map_of_mem he)
      refine ⟨row, ?_, settling⟩
      rw [Store.drop?_updateDrop s d.id hid, if_neg hother]
      exact found
    obtain ⟨failed, after, hgives, hafter⟩ := ih hmid different.2 hrest
    refine ⟨_, after, Work.gives_mapM_cons.mpr ⟨first, mid, failed, hfirst, hgives, rfl⟩, ?_⟩
    rw [Store.updateDrops_updateDrop hid different.1] at hafter
    exact hafter

/-- What failing the stalled drops makes of the tables: it is those that fail, no other drop is
touched, and what they held is held no longer. -/
structure Store.FailsStalled (s t : Store) (asOf : Moment) (length : Duration) (utc : Moment) :
    Prop where
  accounts : t.accounts = s.accounts
  entries : t.entries = s.entries
  drops : t.drops = s.drops.map fun d =>
    if d.isStalled asOf length then d.asFailed interruptedReason none utc else d
  holds : ∀ name, (t.held name none).units + s.stalledUnits asOf length name =
    (s.held name none).units

theorem Store.failsStalled_of_drops {t : Store} {length : Duration}
    (accounts : t.accounts = s.accounts) (entries : t.entries = s.entries)
    (drops : t.drops = s.drops.map fun d =>
      if d.isStalled asOf length then d.asFailed interruptedReason none utc else d) :
    s.FailsStalled t asOf length utc where
  accounts := accounts
  entries := entries
  drops := drops
  holds := held_map_ended (fun _ _ hstalled =>
    Drop.isHolding_of_settling (Bool.and_eq_true_iff.mp hstalled).1)
    (fun _ => Drop.isHolding_asFailed ..) drops

/-- Every account gets back what its own stalled drops held. -/
theorem Store.FailsStalled.available {t : Store} {length : Duration}
    (fails : s.FailsStalled t asOf length utc) (covered : s.Covered) (name : String) :
    (t.view name none).available.units =
      (s.view name none).available.units + s.stalledUnits asOf length name := by
  have hbalance : t.balance name = s.balance name := by
    unfold balance account?
    rw [fails.accounts]
  have hbefore := available_add_held (covered name)
  have hcovered := covered name
  have hreleased := fails.holds name
  have hafter : (t.view name none).available.units + (t.held name none).units =
      (t.balance name).units := available_add_held (by rw [hbalance]; omega)
  rw [hbalance] at hafter
  omega

theorem failStalled_gives {seconds : Value} {length : Duration} {cutoff limit : Moment}
    (hi : s.IdsDiffer) (hs : desk.Holds s)
    (hlength : seconds.seconds = .ok length) (hcutoff : asOf.sub? length = some cutoff)
    (hlimit : cutoff.IsStoredAs limit) (timed : asOf.IsStoredAs utc) :
    ∃ failed after t, (failStalled asOf seconds).Gives desk failed after ∧ after.Holds t ∧
      s.FailsStalled t asOf length utc := by
  have hinCalendar : Checked.inCalendar (asOf.sub? length) = .ok cutoff := by rw [hcutoff]; rfl
  have hfound := findStalled_gives.mpr
    ⟨length, cutoff, limit, s, hlength, hinCalendar, hlimit, hs, rfl, rfl⟩
  have hmem {d : Drop} := Store.mem_stalled (s := s) (d := d) hcutoff hlimit
  have different : ((s.stalled limit).map (·.id)).Nodup := Store.nodup_sortedBy_filter hi _ _
  have there : ∀ d ∈ s.stalled limit, ∃ row, s.drop? d.id = some row ∧
      row.has .settling = true := by
    intro d hd
    obtain ⟨hd, hstalled⟩ := hmem.mp hd
    exact ⟨d, Store.drop?_of_mem hi hd, (Bool.and_eq_true_iff.mp hstalled).1⟩
  obtain ⟨failed, after, hgives, hafter⟩ := failEach_gives timed hs different there
  refine ⟨failed, after, _, Work.gives_bind.mpr ⟨_, _, hfound, hgives⟩, hafter, ?_⟩
  refine Store.failsStalled_of_drops rfl rfl (List.map_congr_left fun d hd => ?_)
  have hids : d.id ∈ (s.stalled limit).map (·.id) ↔ d.isStalled asOf length = true := by
    rw [List.mem_map]
    constructor
    · intro h
      obtain ⟨e, he, hid⟩ := h
      obtain ⟨hdrop, hstalled⟩ := hmem.mp he
      rw [← Rows.eq_of_key Drop.id hi hdrop hd hid]
      exact hstalled
    · exact fun hstalled => ⟨d, hmem.mpr ⟨hd, hstalled⟩, rfl⟩
  by_cases hstalled : d.isStalled asOf length = true
  · rw [if_pos (hids.mpr hstalled), if_pos hstalled]
  · rw [if_neg fun h => hstalled (hids.mp h), if_neg hstalled]

end Stalled
end Ledger

/-! ### Units of work -/

namespace State
variable {σ : State}

/-- Whether a unit of work, if it is kept, frees so much for a holder and pays others so much. -/
def Releases {α : Type} (σ : State) (work : Work α) (holder : String) (freed : Int)
    (paid : String → Nat) : Prop :=
  ∀ operation desk a after, (σ.begun desk).transact operation work = (.ok a, after) →
    ∃ t, after.Holds t ∧ σ.store.Frees t holder freed paid

theorem Releases.of_gives {α : Type} {work : Work α} {holder : String} {freed : Int}
    {paid : String → Nat}
    (h : ∀ desk a after, desk.Holds σ.store → work.Gives desk a after →
      ∃ t, after.Holds t ∧ σ.store.Frees t holder freed paid) :
    σ.Releases work holder freed paid :=
  fun _ desk a after hkept => h _ a after (σ.holds_begun desk) (transact_begun_ok.mp hkept).1

theorem Contained.releases_created (h : σ.Contained) {r : DropRequest} {initiator : String}
    (named : r.initiator.text? = some initiator) :
    σ.Releases (createDrop r) initiator (-r.amount.units) fun _ => 0 := by
  refine .of_gives fun desk drop after hs hgives => ?_
  obtain ⟨s, holder, openedAt, deadline, ht, creates, -, rfl⟩ := createDrop_gives.mp hgives
  obtain rfl := hs.unique ht
  obtain rfl : initiator = holder :=
    Option.some.inj (named.symm.trans (checkName_ok creates.named).1)
  exact ⟨_, hs.afterCreate .., h.covered.frees_created creates _⟩

section Drops
variable {d : Drop}

theorem Contained.releases_claimed (h : σ.Contained) (hd : d ∈ σ.store.drops) (time : Moment) :
    σ.Releases (claim d.id time) d.initiator 0 fun _ => 0 := by
  refine .of_gives fun desk drop after hs hgives => ?_
  obtain ⟨utc, s, row, -, ht, found, pending, -, rfl⟩ := claim_gives.mp hgives
  obtain rfl := hs.unique ht
  obtain rfl := Store.eq_of_drop? d.id h.reached.idsDiffer hd rfl found
  exact ⟨_, hs.keep _, h.covered.frees_claimed h.reached.idsDiffer found pending utc⟩

theorem Contained.releases_paidOut (h : σ.Contained) (hd : d ∈ σ.store.drops) {sweeper : Sweeper}
    (hexecute : sweeper.execute = execute) (participants : List String) :
    σ.Releases (sweeper.payOut d participants) d.initiator
      (d.amount.units - participants.length * (d.amount.units / participants.length))
      fun name => if name ∈ participants then d.amount.units / participants.length else 0 := by
  refine .of_gives fun desk receipt after hs hgives => ?_
  obtain ⟨s, utc, row, ht, pays, found, settling, -, rfl⟩ :=
    (Ledger.payOut_gives hexecute).mp hgives
  obtain rfl := hs.unique ht
  obtain rfl := Store.eq_of_drop? d.id h.reached.idsDiffer hd rfl found
  have hpays := Store.paysOut_paidOut h.reached.idsDiffer hd (h.bounded d.initiator) pays
  exact ⟨_, (hs.afterTransfer _ _).keep _, hpays.frees h.covered h.reached.idsDiffer hd
    (Drop.isHolding_of_settling settling)⟩

theorem Contained.releases_expired (h : σ.Contained) (hd : d ∈ σ.store.drops) (time : Moment) :
    σ.Releases (markExpired d.id time) d.initiator d.amount.units fun _ => 0 := by
  refine .of_gives fun desk drop after hs hgives => ?_
  obtain ⟨utc, s, row, -, ht, found, settling, -, rfl⟩ := markExpired_gives.mp hgives
  obtain rfl := hs.unique ht
  obtain rfl := Store.eq_of_drop? d.id h.reached.idsDiffer hd rfl found
  exact ⟨_, hs.keep _, h.covered.frees_ended h.reached.idsDiffer found
    (Drop.isHolding_of_settling settling) fun d => d.isHolding_asExpired utc⟩

theorem Contained.releases_failed (h : σ.Contained) (hd : d ∈ σ.store.drops) (reason : String)
    (time : Moment) (participants : Option Int) :
    σ.Releases (markFailed d.id reason time participants) d.initiator d.amount.units
      fun _ => 0 := by
  refine .of_gives fun desk drop after hs hgives => ?_
  obtain ⟨utc, s, row, -, -, ht, found, settling, -, rfl⟩ := markFailed_gives.mp hgives
  obtain rfl := hs.unique ht
  obtain rfl := Store.eq_of_drop? d.id h.reached.idsDiffer hd rfl found
  exact ⟨_, hs.keep _, h.covered.frees_ended h.reached.idsDiffer found
    (Drop.isHolding_of_settling settling) fun d => d.isHolding_asFailed ..⟩

end Drops

/-- As long as no balance has outgrown its column, every step of a drop frees what it should and
nothing else: a new drop takes its amount off what its initiator can spend, a claim leaves that
alone, a payout gives back what is not shared out, and every other ending gives back all of it.
Interrupted settlements are failed alike, each for its own initiator, and those are the drops that
have been settling for long enough. -/
theorem holds_accounted (h : σ.Contained) :
    (∀ r initiator, r.initiator.text? = some initiator →
      σ.Releases (createDrop r) initiator (-r.amount.units) fun _ => 0) ∧
    (∀ d ∈ σ.store.drops,
      (∀ time, σ.Releases (claim d.id time) d.initiator 0 fun _ => 0) ∧
      (∀ (sweeper : Sweeper) participants, sweeper.execute = execute →
        σ.Releases (sweeper.payOut d participants) d.initiator
          (d.amount.units - participants.length * (d.amount.units / participants.length))
          fun name => if name ∈ participants then d.amount.units / participants.length else 0) ∧
      (∀ time, σ.Releases (markExpired d.id time) d.initiator d.amount.units fun _ => 0) ∧
      ∀ reason time participants,
        σ.Releases (markFailed d.id reason time participants) d.initiator d.amount.units
          fun _ => 0) ∧
    ∀ (seconds : Value) length (asOf cutoff limit utc : Moment), seconds.seconds = .ok length →
      asOf.sub? length = some cutoff → cutoff.IsStoredAs limit → asOf.IsStoredAs utc →
      ∀ operation desk, ∃ failed after t,
        (σ.begun desk).transact operation (failStalled asOf seconds) = (.ok failed, after) ∧
          after.Holds t ∧ σ.store.FailsStalled t asOf length utc ∧
            ∀ name, (t.view name none).available.units =
              (σ.store.view name none).available.units + σ.store.stalledUnits asOf length name := by
  refine ⟨fun r initiator => h.releases_created, fun d hd => ⟨h.releases_claimed hd,
    fun sweeper participants hexecute => h.releases_paidOut hd hexecute participants,
    h.releases_expired hd, h.releases_failed hd⟩, ?_⟩
  intro seconds length asOf cutoff limit utc hlength hcutoff hlimit timed operation desk
  obtain ⟨failed, after, t, hgives, ht, fails⟩ := failStalled_gives h.reached.idsDiffer
    (σ.holds_begun desk) hlength hcutoff hlimit timed
  exact ⟨failed, after, t, transact_begun_ok.mpr ⟨hgives, ht.sound⟩, ht, fails,
    fails.available h.covered⟩

/-- Alice can spend three of her ten while her drop of seven is being settled, four once it is
shared between two, and all of them if it is failed instead. -/
theorem claimed_accounted :
    (Sample.claimed.store.view "alice" none).available.units = 3 ∧
    (∃ receipt after t, (Sample.claimed.begun (Sample.desk 3)).transact "settle_reactdrop"
        (Sample.sweeper.payOut Sample.drop Sample.guests) = (.ok receipt, after) ∧
      after.Holds t ∧ (t.view "alice" none).available.units = 4 ∧
      (t.view "bob" none).available.units = 3) ∧
    ∃ failed after t, (Sample.claimed.begun (Sample.desk 3)).transact "fail_stalled_reactdrops"
        (failStalled Sample.deadline (.int 0)) = (.ok failed, after) ∧
      after.Holds t ∧ (t.view "alice" none).available.units = 10 := by
  have hbefore : (Sample.claimed.store.view "alice" none).available.units = 3 ∧
      (Sample.claimed.store.view "bob" none).available.units = 0 := by decide +kernel
  obtain ⟨-, hdrops, hstalled⟩ := holds_accounted Sample.contained_claimed
  refine ⟨hbefore.1, ?_, ?_⟩
  · have hexecute : Sample.sweeper.execute = execute := rfl
    have timed : (Sample.desk 3).now.IsStoredAs Sample.deadline := Moment.isStoredAs_self rfl
    obtain ⟨receipt, after, t, hgives, ht, -⟩ := Sample.contained_claimed.payOut_gives
      Sample.mem_claimed rfl (by decide) (by decide) Sample.named_guests (by decide) hexecute
      (by decide) timed ⟨by decide +kernel, by decide +kernel⟩
    have hkept : (Sample.claimed.begun (Sample.desk 3)).transact "settle_reactdrop"
        (Sample.sweeper.payOut Sample.drop Sample.guests) = (.ok receipt, after) :=
      transact_begun_ok.mpr ⟨hgives, ht.sound⟩
    obtain ⟨u, hu, frees⟩ :=
      (hdrops _ Sample.mem_claimed).2.1 _ Sample.guests hexecute _ _ _ _ hkept
    have halice : ((u.view "alice" none).available.units : Int) =
        (Sample.claimed.store.view "alice" none).available.units + (7 - 2 * (7 / 2)) :=
      frees.available
    have hbob : (u.view "bob" none).available.units =
        (Sample.claimed.store.view "bob" none).available.units + 7 / 2 :=
      frees.others "bob" (by decide) (by decide +kernel)
    exact ⟨receipt, after, u, hkept, hu, by omega, by omega⟩
  · have hcutoff : Sample.deadline.sub? ⟨0⟩ = some Sample.deadline := by decide +kernel
    obtain ⟨failed, after, t, hkept, ht, -, available⟩ :=
      hstalled (.int 0) ⟨0⟩ Sample.deadline _ _ _ rfl hcutoff (Moment.isStoredAs_self rfl)
        (Moment.isStoredAs_self rfl) "fail_stalled_reactdrops" (Sample.desk 3)
    have hheld : Sample.claimed.store.stalledUnits Sample.deadline ⟨0⟩ "alice" = 7 := by
      decide +kernel
    have halice := available "alice"
    exact ⟨failed, after, t, hkept, ht, by omega⟩

end State
end TipJar
