import TipJar.Proofs.Lifetimes

/-! A reserved payout can always be paid.

A hold is a promise: whatever its initiator does with the rest of the balance, the
amount of a claimed drop is still there when it is paid out. All that a payout can
fail at is then its own participants, its clock and its identifiers, and with those
in order it is kept and moves exactly the shares, to every participant whose column
has room for one. -/
namespace TipJar
open Ledger

/-- The next identifiers of the desk are new: different from each other, and on no entry. -/
structure Ledger.Desk.IsFresh (desk : Desk) (s : Store) (count : Nat) : Prop where
  different : ((List.range count).map fun k => desk.ids (desk.nextId + k)).Nodup
  unused : ∀ k < count, ∀ e ∈ s.entries,
    e.id ≠ desk.ids (desk.nextId + k) ∧ e.event ≠ desk.ids (desk.nextId + k)

/-- A reading of universal time goes into a column as it is. -/
theorem Moment.isStoredAs_self {m : Moment} (h : m.offset = some 0) : m.IsStoredAs m := by
  obtain ⟨wall, hwall, offset⟩ := m
  subst h
  refine ⟨rfl, ?_⟩
  unfold toUtc? of? instant
  have hrange : (0 : Int) ≤ (wall : Int) - (some (0 : Int)).getD 0 ∧
      (wall : Int) - (some (0 : Int)).getD 0 < limit := by
    unfold limit
    simp only [Option.getD_some]
    omega
  rw [dif_pos hrange]
  simp

namespace Ledger.Store

/-- What a payout leaves: every participant with room for a share has gained one, the initiator has
lost all of them, the drop is settled, and nothing else of accounts and drops is different. -/
structure PaysOut (s t : Store) (d : Drop) (participants : List String) (event : Uuid)
    (time : Moment) : Prop where
  gained : ∀ name ∈ participants,
    ((s.balance name).units + d.amount.units / participants.length : Nat) ≤ columnMax →
      (t.balance name).units = (s.balance name).units + d.amount.units / participants.length
  lost : (t.balance d.initiator).units +
    participants.length * (d.amount.units / participants.length) = (s.balance d.initiator).units
  others : ∀ name, name ∉ d.initiator :: participants → t.account? name = s.account? name
  drops : t.drops = s.drops.map fun e =>
    if e.id = d.id then
      d.asSettled event participants.length
        ⟨participants.length * (d.amount.units / participants.length)⟩ time
    else e

theorem paysOut_paidOut {s : Store} {desk : Desk} {d : Drop} {participants : List String}
    {minimum : Amount} {utc : Moment} (hi : s.IdsDiffer) (hd : d ∈ s.drops)
    (fits : (s.balance d.initiator).units ≤ columnMax)
    (pays : desk.CanPay s (d.payment participants) minimum (some d.id) utc) :
    s.PaysOut (s.paidOut d participants (desk.rowsFor (d.payment participants) utc)
      (desk.ids desk.nextId) utc) d participants (desk.ids desk.nextId) utc := by
  obtain ⟨-, different, hapart, -⟩ := Transfer.Intent.check_ok.mp pays.proper
  have apart : d.initiator ∉ participants := hapart
  have hmoved : (d.payment participants).split.moved =
      ⟨participants.length * (d.amount.units / participants.length)⟩ :=
    Amount.ext (Nat.mul_comm _ _)
  have hcovered := (covers_iff_of_fits (some d.id) fits).mp pays.covered
  have hbalance {name : String} (room : name ∈ participants →
      ((s.balance name).units + d.amount.units / participants.length : Nat) ≤ columnMax) :
      ((s.paidOut d participants (desk.rowsFor (d.payment participants) utc) (desk.ids desk.nextId)
          utc).balance name).units +
          (if d.initiator = name then (d.payment participants).split.moved.units else 0) =
        (s.balance name).units +
          (if name ∈ participants then d.amount.units / participants.length else 0) := by
    rw [balance_paidOut]
    exact balance_transferred_of_fits (desk.rowsFor (d.payment participants) utc) different
      hapart fits (Nat.le_of_add_left_le hcovered) room
  constructor
  · intro name hname room
    have hsource : d.initiator ≠ name := fun h => apart (h ▸ hname)
    have hgained := hbalance fun _ => room
    rw [if_neg hsource, if_pos hname] at hgained
    exact hgained
  · have hlost := hbalance fun h => absurd h apart
    rw [if_pos rfl, if_neg apart, hmoved] at hlost
    exact hlost
  · intro name hname
    rw [account?_paidOut]
    exact s.account?_transferred_of_not_mem (desk.rowsFor (d.payment participants) utc) name hname
  · show (s.transferred (d.payment participants)
      (desk.rowsFor (d.payment participants) utc)).drops.map _ = _
    rw [drops_transferred, hmoved]
    apply List.map_congr_left
    intro e he
    by_cases hid : e.id = d.id
    · rw [if_pos hid, if_pos (beq_iff_eq.mpr hid), Rows.eq_of_key Drop.id hi he hd hid]
    · rw [if_neg hid, if_neg (by simpa using hid)]

/-- A payout to participants with room for their shares leaves no balance beyond its column. -/
theorem PaysOut.bounded {s t : Store} {d : Drop} {participants : List String} {event : Uuid}
    {time : Moment} (pays : s.PaysOut t d participants event time) (before : s.Bounded)
    (room : ∀ name ∈ participants,
      ((s.balance name).units + d.amount.units / participants.length : Nat) ≤ columnMax) :
    t.Bounded := by
  intro name
  by_cases hmem : name ∈ participants
  · rw [pays.gained name hmem (room name hmem)]
    exact room name hmem
  by_cases hinitiator : name = d.initiator
  · have hlost := pays.lost
    have hbefore := before d.initiator
    rw [hinitiator]
    omega
  · have hsame : t.balance name = s.balance name := by
      unfold balance
      rw [pays.others name (by simp [hinitiator, hmem])]
    rw [hsame]
    exact before name

/-- Entries with new identifiers are admitted once the accounts of their transfer are open. -/
theorem admits_of_fresh {s : Store} {desk : Desk} {i : Transfer.Intent}
    (fresh : desk.IsFresh s (i.destinations.length + 1)) (utc : Moment) :
    (s.debitedAndCredited i.source i.credits).Admits (desk.rowsFor i utc) := by
  have hids : (stamp desk.ids (desk.nextId + 1) i.destinations).map (·.2) =
      (List.range i.destinations.length).map fun k => desk.ids (desk.nextId + (k + 1)) := by
    rw [map_snd_stamp]
    apply List.map_congr_left
    intro k _
    rw [Nat.add_assoc, Nat.add_comm 1 k]
  have hdifferent := fresh.different
  rw [List.range_succ_eq_map, List.map_cons, List.nodup_cons, List.map_map] at hdifferent
  refine admits_entriesFor (hids ▸ hdifferent.2) ?_ ?_ ?_
  · intro e he
    rw [entries_debitedAndCredited] at he
    refine ⟨(fresh.unused 0 (Nat.succ_pos _) e he).2, fun hmem => ?_⟩
    rw [hids] at hmem
    obtain ⟨k, hk, heq⟩ := List.mem_map.mp hmem
    have hlt : k + 1 < i.destinations.length + 1 := Nat.succ_lt_succ (List.mem_range.mp hk)
    exact (fresh.unused (k + 1) hlt e he).1 heq.symm
  · rw [isSome_account?_debitedAndCredited, decide_eq_true List.mem_cons_self, Bool.true_or]
  · intro name hname
    rw [map_fst_stamp] at hname
    rw [isSome_account?_debitedAndCredited, Transfer.Intent.map_fst_credits,
      decide_eq_true (List.mem_cons_of_mem _ hname), Bool.true_or]

end Ledger.Store

namespace State
variable {σ : State}

/-- What a claimed drop pays out is there. -/
theorem Contained.covers (h : σ.Contained) {d : Drop} (hd : d ∈ σ.store.drops)
    (settling : d.has .settling = true) (participants : List String) :
    (σ.store.held d.initiator (some d.id)).units + (d.payment participants).split.moved.units ≤
      (σ.store.balance d.initiator).units := by
  have hmoved : (d.payment participants).split.moved.units ≤ d.amount.units :=
    Transfer.Intent.moved_le
  have hhold := Store.held_except_add h.reached.idsDiffer hd (Drop.isHolding_of_settling settling)
  have hcovered := h.covered d.initiator
  omega

/-- A claimed drop can be paid out to any proper participants. -/
theorem Contained.canPay (h : σ.Contained) {d : Drop} (hd : d ∈ σ.store.drops)
    (settling : d.has .settling = true) {participants : List String} (nonempty : participants ≠ [])
    (different : participants.Nodup) (named : ∀ name ∈ participants, IsName name)
    (apart : d.initiator ∉ participants) {minimum : Amount} (least : minimum ≤ d.amount)
    {desk : Desk} {utc : Moment} (timed : desk.now.IsStoredAs utc)
    (fresh : desk.IsFresh σ.store (participants.length + 1)) :
    desk.CanPay σ.store (d.payment participants) minimum (some d.id) utc where
  proper := Transfer.Intent.check_ok.mpr ⟨nonempty, different, apart, least⟩
  names := List.forall_mem_cons.mpr ⟨(h.reached.lived d hd).sound.1, named⟩
  fits := by
    have hmoved : (d.payment participants).split.moved.units ≤ d.amount.units :=
      Transfer.Intent.moved_le
    have hfits := (h.reached.lived d hd).sound.2.2
    omega
  summed := (h.counts d.initiator (some d.id)).held
  covered := by
    have hcovers := h.covers hd settling participants
    exact (Store.covers_iff_of_fits (some d.id) (h.bounded d.initiator)).mpr hcovers
  timed := timed
  admitted := Store.admits_of_fresh fresh utc

section Settling
variable {d : Drop} {participants : List String} {sweeper : Sweeper} {desk : Desk} {utc : Moment}

theorem Contained.payOut_gives (h : σ.Contained) (hd : d ∈ σ.store.drops)
    (settling : d.has .settling = true) (nonempty : participants ≠ [])
    (different : participants.Nodup) (named : ∀ name ∈ participants, IsName name)
    (apart : d.initiator ∉ participants)
    (hexecute : sweeper.execute = execute) (least : sweeper.minimum ≤ d.amount)
    (timed : desk.now.IsStoredAs utc) (fresh : desk.IsFresh σ.store (participants.length + 1)) :
    ∃ receipt after t, (sweeper.payOut d participants).Gives (σ.begun desk) receipt after ∧
      after.Holds t ∧ σ.store.PaysOut t d participants receipt.event utc := by
  have hbegun := σ.holds_begun desk
  have pays : (σ.begun desk).CanPay σ.store (d.payment participants) sweeper.minimum (some d.id)
      utc :=
    h.canPay hd settling nonempty different named apart least timed ⟨fresh.different, fresh.unused⟩
  exact ⟨_, _, _, (Ledger.payOut_gives hexecute).mpr ⟨σ.store, utc, d, hbegun, pays,
    Store.drop?_of_mem h.reached.idsDiffer hd, settling, rfl, rfl⟩,
    (hbegun.afterTransfer _ _).keep _,
    Store.paysOut_paidOut h.reached.idsDiffer hd (h.bounded d.initiator) pays⟩

/-- Whatever else has happened to its initiator's account, as long as no balance has outgrown its
column, a claimed drop that is large enough for the sweeper can be paid out to any proper
participants: the unit of work is kept, and moves exactly the shares. -/
theorem settling_always_payable (h : σ.Contained) (hd : d ∈ σ.store.drops)
    (settling : d.has .settling = true) (nonempty : participants ≠ [])
    (different : participants.Nodup) (named : ∀ name ∈ participants, IsName name)
    (apart : d.initiator ∉ participants)
    (hexecute : sweeper.execute = execute) (least : sweeper.minimum ≤ d.amount)
    (timed : desk.now.IsStoredAs utc) (fresh : desk.IsFresh σ.store (participants.length + 1))
    (operation : String) :
    ∃ receipt after t,
      (σ.begun desk).transact operation (sweeper.payOut d participants) = (.ok receipt, after) ∧
        after.tables = some t ∧ σ.store.PaysOut t d participants receipt.event utc := by
  obtain ⟨receipt, after, t, hgives, ht, pays⟩ := h.payOut_gives hd settling nonempty different
    named apart hexecute least timed fresh
  exact ⟨receipt, after, t, transact_begun_ok.mpr ⟨hgives, ht.sound⟩, ht.tables, pays⟩

end Settling

/-- Alice's drop of seven is split between two: three for each of them, and one left over. -/
theorem sample_payable :
    ∃ receipt after t,
      (Sample.claimed.begun (Sample.desk 3)).transact "settle_reactdrop"
          (Sample.sweeper.payOut Sample.drop Sample.guests) = (.ok receipt, after) ∧
        after.tables = some t ∧
        Sample.claimed.store.PaysOut t Sample.drop Sample.guests receipt.event Sample.deadline :=
  settling_always_payable Sample.contained_claimed Sample.mem_claimed rfl (by decide) (by decide)
    Sample.named_guests (by decide) rfl (by decide) (Moment.isStoredAs_self rfl)
    ⟨by decide +kernel, by decide +kernel⟩ "settle_reactdrop"

/-- The small run ends with the payout. -/
theorem sample_paid_eq :
    ∃ receipt t, Sample.paid = ⟨t, Sample.claimed.history ++ [.paidOut Sample.drop.id receipt]⟩ ∧
      Sample.claimed.store.PaysOut t Sample.drop Sample.guests receipt.event Sample.deadline := by
  have hexecute : Sample.sweeper.execute = execute := rfl
  have timed : (Sample.desk 3).now.IsStoredAs Sample.deadline := Moment.isStoredAs_self rfl
  obtain ⟨receipt, after, t, hgives, ht, pays⟩ := Sample.contained_claimed.payOut_gives
    Sample.mem_claimed rfl (by decide) (by decide) Sample.named_guests (by decide) hexecute
    (by decide) timed ⟨by decide +kernel, by decide +kernel⟩
  have hwork : (Deed.work (.payOut Sample.sweeper Sample.drop Sample.guests)).Gives
      (Sample.claimed.begun (Sample.desk 3)) [.paidOut Sample.drop.id receipt] after :=
    Work.gives_bind.mpr ⟨receipt, after, hgives, Work.gives_pure.mpr ⟨rfl, rfl⟩⟩
  exact ⟨receipt, t, perform_of_gives hwork ht "settle_reactdrop", pays⟩

theorem contained_sample_paid : Sample.paid.Contained := by
  obtain ⟨receipt, t, hpaid, pays⟩ := sample_paid_eq
  refine Sample.contained_claimed.perform _ "settle_reactdrop" (Sample.desk 3)
    ⟨rfl, Sample.given_claimed⟩ ?_
  show Sample.paid.store.Bounded
  rw [hpaid]
  exact pays.bounded Sample.contained_claimed.bounded (by decide +kernel)

theorem drops_sample_paid :
    ∃ event, Sample.paid.store.drops = [Sample.drop.asSettled event 2 ⟨6⟩ Sample.deadline] := by
  obtain ⟨receipt, t, hpaid, pays⟩ := sample_paid_eq
  have hdrops : Sample.claimed.store.drops = [Sample.drop] := by decide +kernel
  rw [hpaid]
  refine ⟨receipt.event, ?_⟩
  rw [pays.drops, hdrops]
  rfl

end State
end TipJar
