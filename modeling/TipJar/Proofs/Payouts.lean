import TipJar.Proofs.Journal
import TipJar.Proofs.Payability

/-! Drops are paid out once, or never.

A payout is claimed in one unit of work and made in another, and in between anybody
may fail the drop. That nothing is paid twice rests on three facts: an event is new
when its transfer is kept, a drop turns once out of settling, and the turn to settled
is in the same unit of work as the transfer. Journal and drops then tell the same
story, read from either side. -/
namespace TipJar
open Ledger

namespace Ledger.Store
variable {s t : Store}

/-- A settled drop names an event, and under it stands the payment of the drop. -/
def Backs (s : Store) (d : Drop) : Prop :=
  ∃ event participants, d.event = some event ∧ d.participants = some (List.length participants) ∧
    d.moved = some (d.payment participants).split.moved ∧ (d.payment participants).IsProper ∧
    s.Records event (d.payment participants)

theorem Grows.backs (h : s.Grows t) {d : Drop} (hs : s.Backs d) : t.Backs d := by
  obtain ⟨event, participants, hevent, hcount, hmoved, proper, hrecords⟩ := hs
  exact ⟨event, participants, hevent, hcount, hmoved, proper, h.records proper hrecords⟩

/-- There are entries under the event of a drop that is backed. -/
theorem Backs.entry {d : Drop} {event : Uuid} (h : s.Backs d) (hevent : d.event = some event) :
    ∃ e ∈ s.entries, e.event = event := by
  obtain ⟨other, participants, hother, -, -, proper, hrecords⟩ := h
  obtain ⟨e, he, hsame, -⟩ := hrecords.first proper
  exact ⟨e, he, hsame.trans (Option.some.inj (hother.symm.trans hevent))⟩

end Ledger.Store

namespace State
variable {σ τ : State}

/-- A payout is of the drop as it is: initiator and amount are those of the row. -/
theorem Reached.payment_eq (h : σ.Reached) {d row : Drop} (given : .claimed d ∈ σ.history)
    (found : σ.store.drop? d.id = some row) (participants : List String) :
    row.payment participants = d.payment participants := by
  have hturns := h.turns_of_id (mem_claims.mpr given) (Store.mem_of_drop? _ _ found)
    (Store.id_of_drop? _ _ found)
  unfold Drop.payment
  rw [hturns.same.2.1, hturns.same.2.2]

/-- What is known of a drop that a change has just settled: it is backed, under an event that had no
entries before, and it is the only drop that changed. -/
structure Settles (σ τ : State) (e : Drop) : Prop where
  backs : τ.store.Backs e
  new {event : Uuid} (named : e.event = some event) : ∀ x ∈ σ.store.entries, x.event ≠ event
  only : ∀ d ∈ τ.store.drops, d ∈ σ.store.drops ∨ d = e

theorem settled_change (h : σ.Reached) (change : Change σ τ) {e : Drop} (he : e ∈ τ.store.drops)
    (settled : e.has .settled = true) : e ∈ σ.store.drops ∨ Settles σ τ e := by
  have hi := h.idsDiffer
  refine (arrives_of_change hi change he).imp_right fun arrives => ?_
  cases arrives with
  | created pending => cases Drop.eq_of_has pending settled
  | claimed settling => cases Drop.eq_of_has settling settled
  | closed ended => rcases ended with h' | h' <;> cases Drop.eq_of_has h' settled
  | @paidOut desk d row participants minimum utc given pays found left same =>
    have hpayment : e.payment participants = d.payment participants := by
      rw [same]
      exact h.payment_eq given found participants
    have hevent : e.event = some (desk.ids desk.nextId) := by
      rw [same]
      rfl
    refine ⟨⟨desk.ids desk.nextId, participants, hevent, ?_, ?_, ?_, ?_⟩, ?_, ?_⟩
    · rw [same]
      rfl
    · rw [hpayment, same]
      rfl
    · rw [hpayment]
      exact pays.isProper
    · rw [hpayment, left]
      exact Store.records_transferred h.journaled pays
    · intro event named x hx
      rw [← Option.some.inj (hevent.symm.trans named)]
      exact Store.event_ne h.journaled pays x hx
    · intro d' hd'
      rw [left] at hd'
      rcases (Store.mem_paidOut_iff hi found).mp hd' with hsame | ⟨hd', -⟩
      · exact .inr (hsame.trans same.symm)
      · exact .inl hd'

/-- Every settled drop is backed. -/
theorem Reached.backed (h : σ.Reached) :
    ∀ d ∈ σ.store.drops, d.has .settled = true → σ.store.Backs d := by
  induction h with
  | refl => exact fun _ hd => absurd hd List.not_mem_nil
  | tail before change ih =>
    intro e he settled
    rcases settled_change before change he settled with hold | settles
    · exact (grows_change before change).backs (ih e hold settled)
    · exact settles.backs

/-- A drop that names an event is settled. -/
theorem Reached.settled_of_event (h : σ.Reached) {d : Drop} {event : Uuid} (hd : d ∈ σ.store.drops)
    (hevent : d.event = some event) : d.has .settled = true := by
  rw [← (h.lived d hd).event_isSome, hevent, Option.isSome_some]

/-- No event is named by two drops. -/
theorem Reached.eq_of_event (h : σ.Reached) {d e : Drop} {event : Uuid} (hd : d ∈ σ.store.drops)
    (he : e ∈ σ.store.drops) (hevent : d.event = some event) (hsame : e.event = some event) :
    d = e := by
  induction h with
  | refl => exact absurd hd List.not_mem_nil
  | @tail σ τ before change ih =>
    have hτ := Reached.next before change
    -- A drop that was settled before has entries under its event, and the new event has none.
    have hnew {d e : Drop} (hd : d ∈ σ.store.drops) (hevent : d.event = some event)
        (hsame : e.event = some event) (settles : Settles σ τ e) : False := by
      obtain ⟨x, hx, hxe⟩ := (Reached.backed before d hd
        (Reached.settled_of_event before hd hevent)).entry hevent
      exact settles.new hsame x hx hxe
    rcases settled_change before change he (hτ.settled_of_event he hsame) with he' | settles
    · rcases settled_change before change hd (hτ.settled_of_event hd hevent) with hd' | settles
      · exact ih hd' he'
      · exact (hnew he' hsame hevent settles).elim
    · rcases settles.only d hd with hd' | rfl
      · exact (hnew hd' hevent hsame settles).elim
      · rfl

/-- Every entry of a payment stands under the event of a settled drop. -/
theorem Reached.owned (h : σ.Reached) :
    ∀ x ∈ σ.store.entries, x.kind = .known .drop →
      ∃ d ∈ σ.store.drops, d.has .settled = true ∧ d.event = some x.event := by
  induction h with
  | refl => exact fun _ hx => absurd hx List.not_mem_nil
  | @tail σ τ before change ih =>
    have hi := Reached.idsDiffer before
    intro x hx hkind
    have hold (hx : x ∈ σ.store.entries) :
        ∃ d ∈ τ.store.drops, d.has .settled = true ∧ d.event = some x.event := by
      obtain ⟨d, hd, settled, hevent⟩ := ih x hx hkind
      obtain ⟨e, he, hturns⟩ := (drops_change change).forward hi hd
      obtain rfl := Drop.IsOver.eq_of_turns (.inl settled) hturns
      exact ⟨e, he, settled, hevent⟩
    cases change with
    | opened =>
      rw [Store.entries_withAccount] at hx
      exact hold hx
    | set | deposited | created | claimed | closed => exact hold hx
    | tipped tip pays =>
      rw [Store.entries_transferred, List.mem_append] at hx
      rcases hx with hx | hx
      · exact hold hx
      · rw [(shared_of_mem_entriesFor hx).2.1] at hkind
        injection hkind with hkind
        exact absurd hkind tip
    | @paidOut s _ desk d row participants _ utc given pays found =>
      rw [Store.entries_paidOut, List.mem_append] at hx
      rcases hx with hx | hx
      · exact hold hx
      · rw [Store.event_of_mem_rowsFor hx]
        exact ⟨_, (Store.mem_paidOut_iff hi found).mpr (.inl rfl), rfl, rfl⟩

/-- Every settled drop is the only one to name its event, so the payments and the settled drops are
in one-to-one correspondence. -/
theorem Reached.owner (h : σ.Reached) {x : Entry} (hx : x ∈ σ.store.entries)
    (hkind : x.kind = .known .drop) :
    ∃ d, σ.store.drops.filter (fun d => d.has .settled && d.event == some x.event) = [d] := by
  obtain ⟨d, hd, settled, hevent⟩ := h.owned x hx hkind
  have hnodup : σ.store.drops.Nodup := List.Nodup.of_map _ h.idsDiffer
  refine ⟨d, List.perm_singleton.mp ((List.perm_ext_iff_of_nodup (hnodup.filter _)
    (List.nodup_singleton d)).mpr fun e => ?_)⟩
  rw [List.mem_filter, List.mem_singleton, Bool.and_eq_true, beq_iff_eq]
  constructor
  · intro found
    obtain ⟨he, -, hsame⟩ := found
    exact h.eq_of_event he hd hsame hevent
  · intro same
    rw [same]
    exact ⟨hd, settled, hevent⟩

/-- What the journal says of a settled drop. -/
structure Tallies (s : Store) (d : Drop) (event : Uuid) (count : Nat) : Prop where
  positive : 0 < count
  participants : d.participants = some (count : Int)
  length : (s.eventEntries event).length = count
  shares : ∀ e ∈ s.eventEntries event,
    e.kind = .known .drop ∧ e.source = d.initiator ∧ e.amount.units = d.amount.units / count
  moved : d.moved = some ⟨((s.eventEntries event).map (·.amount.units)).sum⟩

theorem tallies_of_backs {s : Store} {d : Drop} {event : Uuid} (h : s.Backs d)
    (hevent : d.event = some event) : ∃ count, Tallies s d event count := by
  obtain ⟨other, participants, hother, hcount, hmoved, proper, hrecords⟩ := h
  obtain rfl := Option.some.inj (hother.symm.trans hevent)
  refine ⟨participants.length, List.length_pos_of_ne_nil proper.some, hcount, hrecords.length, ?_,
    ?_⟩
  · intro e he
    obtain ⟨hkind, hsource, hamount⟩ := hrecords.shared e he
    exact ⟨hkind, hsource, congrArg Amount.units hamount⟩
  · rw [hmoved, hrecords.sum]

/-- A drop that is not settled was not paid, and no payment is its own. -/
theorem Reached.unpaid (h : σ.Reached) {d : Drop} (hd : d ∈ σ.store.drops)
    (unsettled : d.has .settled = false) :
    d.event = none ∧ (∀ receipt, .paidOut d.id receipt ∉ σ.history) ∧
      ∀ e ∈ σ.store.entries, e.kind = .known .drop →
        ∃ owner ∈ σ.store.drops, owner.event = some e.event ∧ owner.id ≠ d.id := by
  have hother {e : Drop} (he : e ∈ σ.store.drops) (settled : e.has .settled = true) :
      e.id ≠ d.id := by
    intro hid
    rw [Rows.eq_of_key Drop.id h.idsDiffer he hd hid, unsettled] at settled
    cases settled
  refine ⟨?_, fun receipt hmark => ?_, fun e he hkind => ?_⟩
  · rw [← Option.not_isSome_iff_eq_none, (h.lived d hd).event_isSome, unsettled]
    exact Bool.false_ne_true
  · have hpaid : d.id ∈ σ.payouts := mem_payouts.mpr ⟨receipt, hmark⟩
    obtain ⟨row, hrow, hid, settled⟩ := passage_payout.passed h d.id hpaid
    exact hother hrow settled hid
  · obtain ⟨owner, howner, settled, hevent⟩ := h.owned e he hkind
    exact ⟨owner, howner, hevent, hother howner settled⟩

/-- In every run: no drop is claimed twice; a drop is settled exactly if it names an event, and then
the journal holds its payment there, one entry for each participant; every payment belongs to
exactly one settled drop; and a drop that expired or failed stays so, is never paid out, and no
payment is its own. -/
theorem drops_paid_once_or_never (h : σ.Reachable) :
    (σ.claims.map (·.id)).Nodup ∧
      (∀ d ∈ σ.store.drops, (d.has .settled = true ↔ d.event.isSome = true) ∧
        ∀ event, d.event = some event → ∃ count, Tallies σ.store d event count) ∧
      (∀ e ∈ σ.store.entries, e.kind = .known .drop →
        ∃ d, σ.store.drops.filter (fun d => d.has .settled && d.event == some e.event) = [d]) ∧
      ∀ d ∈ σ.store.drops, d.has .expired = true ∨ d.has .failed = true →
        d.event = none ∧ ∀ τ, Run σ τ →
          d ∈ τ.store.drops ∧ (∀ receipt, .paidOut d.id receipt ∉ τ.history) ∧
            ∀ e ∈ τ.store.entries, e.kind = .known .drop →
              ∃ owner ∈ τ.store.drops, owner.event = some e.event ∧ owner.id ≠ d.id := by
  have hreached := h.reached
  refine ⟨passage_claim.nodup hreached, fun d hd => ⟨?_, fun event hevent => ?_⟩,
    fun e he hkind => hreached.owner he hkind, fun d hd hended => ?_⟩
  · rw [(hreached.lived d hd).event_isSome]
  · exact tallies_of_backs (hreached.backed d hd (hreached.settled_of_event hd hevent)) hevent
  · have unsettled : d.has .settled = false := by
      refine Bool.eq_false_iff.mpr fun settled => ?_
      rcases hended with h' | h' <;> cases Drop.eq_of_has settled h'
    refine ⟨(hreached.unpaid hd unsettled).1, fun τ hrun => ?_⟩
    have hlater := Changes.mem_of_isOver hreached (Run.changes hrun) hd (.inr hended)
    exact ⟨hlater, ((h.run hrun).reached.unpaid hlater unsettled).2⟩

/-- The small run ends with one payment: of two entries, for the one drop there is. -/
theorem sample_paid_once :
    ∃ d event, Sample.paid.store.drops = [d] ∧ d.event = some event ∧
      (Sample.paid.store.eventEntries event).length = 2 := by
  obtain ⟨event, hdrops⟩ := drops_sample_paid
  have hmem : Sample.drop.asSettled event 2 ⟨6⟩ Sample.deadline ∈ Sample.paid.store.drops := by
    rw [hdrops]
    exact List.mem_singleton.mpr rfl
  obtain ⟨count, htallies⟩ :=
    ((drops_paid_once_or_never Sample.reachable_paid).2.1 _ hmem).2 event rfl
  have hcount : count = 2 := by
    have := htallies.participants
    injection this with this
    omega
  exact ⟨_, event, hdrops, rfl, hcount ▸ htallies.length⟩

end State
end TipJar
