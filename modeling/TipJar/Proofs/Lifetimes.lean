import TipJar.Proofs.Coverage

/-! The lives of drops.

Whatever the order of the units of work, a single drop goes one way: it is pending,
then settling, then over. `Turn` is one step on it. Every change of the tables adds
a drop, turns one, or touches none, so all that can be said of single lives holds
in every run: a drop that is over stays as it is, what a claim gave is the row until
the next turn, and nobody claims or pays out a drop twice. -/
namespace TipJar
open Ledger

namespace Drop

/-- One step in the life of a drop. -/
inductive Turn : Drop → Drop → Prop
  | claimed {d : Drop} (pending : d.has .pending = true) (time : Moment) : Turn d (d.asClaimed time)
  | settled {d : Drop} (settling : d.has .settling = true) (event : Uuid) (recipients : Nat)
      (moved : Amount) (time : Moment) : Turn d (d.asSettled event recipients moved time)
  | closed {d : Drop} (settling : d.has .settling = true) (ending : Ending) :
      Turn d (d.closed ending)

/-- Any number of steps in the life of a drop. -/
abbrev Turns : Drop → Drop → Prop := Relation.ReflTransGen Turn

/-- Whether the life of a drop is over. -/
def IsOver (d : Drop) : Prop := d.has .settled = true ∨ d.has .expired = true ∨ d.has .failed = true

theorem status_of_has {d : Drop} {status : Status} (h : d.has status = true) :
    d.status = .known status := eq_of_beq h

/-- A drop has one status. -/
theorem eq_of_has {d : Drop} {a b : Status} (ha : d.has a = true) (hb : d.has b = true) :
    a = b := by
  have h := (status_of_has ha).symm.trans (status_of_has hb)
  injection h

variable {d e : Drop}

/-- No step changes what a drop was created with. -/
theorem Turn.same (h : Turn d e) :
    e.id = d.id ∧ e.initiator = d.initiator ∧ e.amount = d.amount := by
  cases h with
  | claimed | settled => exact ⟨rfl, rfl, rfl⟩
  | closed _ ending => cases ending <;> exact ⟨rfl, rfl, rfl⟩

theorem Turns.same (h : Turns d e) :
    e.id = d.id ∧ e.initiator = d.initiator ∧ e.amount = d.amount := by
  induction h with
  | refl => exact ⟨rfl, rfl, rfl⟩
  | tail _ turn ih =>
    obtain ⟨hid, hinitiator, hamount⟩ := turn.same
    exact ⟨hid.trans ih.1, hinitiator.trans ih.2.1, hamount.trans ih.2.2⟩

/-- No step leads back to where lives begin. -/
theorem Turn.not_pending (h : Turn d e) : e.has .pending = false := by
  cases h with
  | claimed | settled => rfl
  | closed _ ending => cases ending <;> rfl

/-- A claimed drop is over after its next step. -/
theorem Turn.isOver (h : Turn d e) (settling : d.has .settling = true) : e.IsOver := by
  cases h with
  | claimed pending => cases eq_of_has settling pending
  | settled => exact .inl rfl
  | closed _ ending => cases ending with
    | expired => exact .inr (.inl rfl)
    | failed => exact .inr (.inr rfl)

/-- A life that is over has no further step. -/
theorem IsOver.not_turn (ended : d.IsOver) : ¬Turn d e := by
  intro h
  have hbefore : d.has .pending = true ∨ d.has .settling = true := by
    cases h with
    | claimed pending => exact .inl pending
    | settled settling | closed settling => exact .inr settling
  rcases ended with h' | h' | h' <;> rcases hbefore with hb | hb <;> cases eq_of_has h' hb

theorem IsOver.eq_of_turns (ended : d.IsOver) (h : Turns d e) : e = d :=
  (Relation.reflTransGen_iff_eq fun _ => ended.not_turn).mp h

/-- What a claimed drop can still become: nothing else, or something that is over. -/
theorem Turns.of_settling (h : Turns d e) (settling : d.has .settling = true) :
    e = d ∨ e.IsOver := by
  induction h with
  | refl => exact .inl rfl
  | tail _ turn ih =>
    rcases ih with rfl | ended
    · exact .inr (turn.isOver settling)
    · exact absurd turn ended.not_turn

/-- The lives drops have led. -/
inductive Lived : Drop → Prop
  | created {desk : Desk} {s : Store} {r : DropRequest} {initiator : String}
      {openedAt deadline : Moment} (creates : desk.CanCreate s r initiator openedAt deadline) :
      Lived (r.row (desk.ids desk.nextId) initiator openedAt deadline)
  | turned {d e : Drop} (before : Lived d) (turn : Turn d e) : Lived e

/-- A drop has an initiator that can be named, and an amount that fits a column. -/
theorem Lived.sound (h : d.Lived) :
    IsName d.initiator ∧ d.amount.units ≠ 0 ∧ d.amount.units ≤ columnMax := by
  induction h with
  | created creates => exact ⟨(checkName_ok creates.named).2, creates.positive, creates.fits⟩
  | turned _ turn ih =>
    obtain ⟨-, hinitiator, hamount⟩ := turn.same
    rw [hinitiator, hamount]
    exact ih

/-- A drop names an event exactly if it is settled. -/
theorem Lived.event_isSome (h : d.Lived) : d.event.isSome = d.has .settled := by
  induction h with
  | created => rfl
  | @turned d _ _ turn ih =>
    cases turn with
    | claimed pending =>
      refine ih.trans (Bool.eq_false_iff.mpr fun settled => ?_)
      cases eq_of_has pending settled
    | settled => rfl
    | closed settling ending =>
      have hnone : d.event.isSome = false := by
        refine ih.trans (Bool.eq_false_iff.mpr fun settled => ?_)
        cases eq_of_has settling settled
      cases ending <;> exact hnone

end Drop

/-- A payout settles its drop and leaves all others alone. -/
theorem Ledger.Store.mem_paidOut_iff {s : Store} (hi : s.IdsDiffer) {d row e : Drop}
    {participants : List String} {rows : List Entry} {event : Uuid} {utc : Moment}
    (found : s.drop? d.id = some row) :
    e ∈ (s.paidOut d participants rows event utc).drops ↔
      e = row.asSettled event participants.length (d.payment participants).split.moved utc ∨
        (e ∈ s.drops ∧ e.id ≠ d.id) := by
  unfold paidOut updateDrop
  rw [drops_transferred]
  exact mem_updateDrop d.id hi found

namespace State
variable {σ τ : State}

/-! ### What a change does to the drops -/

/-- A change leaves all drops alone, adds a pending one, or turns one. -/
inductive DropsChange (s t : Store) : Prop
  | same (same : t.drops = s.drops)
  | added (row : Drop) (new : s.drop? row.id = none) (pending : row.has .pending = true)
      (lived : row.Lived) (added : t.drops = s.drops ++ [row])
  | turned (id : Uuid) (row : Drop) (f : Drop → Drop) (found : s.drop? id = some row)
      (same : ∀ d, (f d).id = d.id) (turn : row.Turn (f row))
      (turned : t.drops = (s.updateDrop id f).drops)

theorem drops_change (change : Change σ τ) : DropsChange σ.store τ.store := by
  cases change with
  | opened => exact .same (Store.drops_withAccount _ _)
  | set | deposited => exact .same rfl
  | tipped => exact .same (Store.drops_transferred _ _)
  | created there creates => exact .added _ creates.fresh rfl (.created creates) rfl
  | claimed found pending =>
    exact .turned _ _ (·.asClaimed _) found (fun _ => rfl) (.claimed pending _) rfl
  | @paidOut s _ desk d row participants _ utc given pays found settling =>
    refine .turned d.id row (·.asSettled (desk.ids desk.nextId) participants.length
      (d.payment participants).split.moved utc) found (fun _ => rfl) (.settled settling _ _ _ _) ?_
    show ((s.transferred (d.payment participants)
      (desk.rowsFor (d.payment participants) utc)).updateDrop d.id _).drops = _
    unfold Store.updateDrop
    rw [Store.drops_transferred]
  | closed found settling =>
    exact .turned _ _ (·.closed _) found (fun d => d.id_closed _) (.closed settling _) rfl

/-- After a change every drop is where it was, or one step further. -/
theorem DropsChange.forward {s t : Store} (hi : s.IdsDiffer) (change : DropsChange s t) {d : Drop}
    (hd : d ∈ s.drops) : ∃ e ∈ t.drops, d.Turns e := by
  cases change with
  | same same => exact ⟨d, same ▸ hd, .refl⟩
  | added row new pending lived added =>
    rw [added]
    exact ⟨d, List.mem_append_left _ hd, .refl⟩
  | turned id row f found same turn turned =>
    rw [turned]
    by_cases hid : d.id = id
    · rw [Store.eq_of_drop? id hi hd hid found]
      exact ⟨f row, (Store.mem_updateDrop id hi found).mpr (.inl rfl), .single turn⟩
    · exact ⟨d, Store.mem_updateDrop_of_ne id hd hid, .refl⟩

/-- Every drop after a change is a new one, or was there one step earlier at most. -/
theorem DropsChange.backward {s t : Store} (hi : s.IdsDiffer) (change : DropsChange s t) {e : Drop}
    (he : e ∈ t.drops) :
    (e.has .pending = true ∧ e.Lived ∧ s.drop? e.id = none) ∨ ∃ d ∈ s.drops, d = e ∨ d.Turn e := by
  cases change with
  | same same => exact .inr ⟨e, same ▸ he, .inl rfl⟩
  | added row new pending lived added =>
    rw [added, List.mem_append, List.mem_singleton] at he
    rcases he with he | rfl
    · exact .inr ⟨e, he, .inl rfl⟩
    · exact .inl ⟨pending, lived, new⟩
  | turned id row f found same turn turned =>
    rw [turned, Store.mem_updateDrop id hi found] at he
    rcases he with rfl | ⟨he, -⟩
    · exact .inr ⟨row, Store.mem_of_drop? s id found, .inr turn⟩
    · exact .inr ⟨e, he, .inl rfl⟩

/-- Every drop has led a life. -/
theorem Reached.lived (h : σ.Reached) : ∀ d ∈ σ.store.drops, d.Lived := by
  induction h with
  | refl => exact fun _ hd => absurd hd List.not_mem_nil
  | tail before change ih =>
    intro e he
    rcases (drops_change change).backward (Reached.idsDiffer before) he with
      ⟨-, lived, -⟩ | ⟨d, hd, rfl | turn⟩
    · exact lived
    · exact ih d hd
    · exact (ih d hd).turned turn

/-- Along a run every drop goes on with its life. -/
theorem Changes.turns (hσ : σ.Reached) (h : Changes σ τ) {d : Drop} (hd : d ∈ σ.store.drops) :
    ∃ e ∈ τ.store.drops, d.Turns e := by
  induction h with
  | refl => exact ⟨d, hd, .refl⟩
  | tail more change ih =>
    obtain ⟨e, he, hturns⟩ := ih
    have hreached : Reached _ := Relation.ReflTransGen.trans hσ more
    obtain ⟨f, hf, hmore⟩ := (drops_change change).forward hreached.idsDiffer he
    exact ⟨f, hf, hturns.trans hmore⟩

/-- A drop that is over stays as it is. -/
theorem Changes.mem_of_isOver (hσ : σ.Reached) (h : Changes σ τ) {d : Drop}
    (hd : d ∈ σ.store.drops) (ended : d.IsOver) : d ∈ τ.store.drops := by
  obtain ⟨e, he, hturns⟩ := h.turns hσ hd
  rwa [ended.eq_of_turns hturns] at he

/-! ### Claims -/

/-- The drops that were claimed, as their claims gave them. -/
def claims (σ : State) : List Drop :=
  σ.history.filterMap fun
    | .claimed d => some d
    | _ => none

theorem mem_claims {d : Drop} : d ∈ σ.claims ↔ .claimed d ∈ σ.history := by
  unfold claims
  rw [List.mem_filterMap]
  constructor
  · intro h
    obtain ⟨mark, hmark, h⟩ := h
    cases mark with
    | claimed e => exact Option.some.inj h ▸ hmark
    | deposited | paidOut => cases h
  · exact fun h => ⟨_, h, rfl⟩

/-- A change makes no claim, or one: of a drop that was pending, and is now as the claim gave it. -/
theorem claims_change (hi : σ.store.IdsDiffer) (change : Change σ τ) :
    τ.claims = σ.claims ∨
      ∃ row ∈ σ.store.drops, ∃ time, row.has .pending = true ∧
        row.asClaimed time ∈ τ.store.drops ∧ τ.claims = σ.claims ++ [row.asClaimed time] := by
  cases change with
  | opened | set | tipped | created | closed => exact .inl rfl
  | deposited | paidOut =>
    left
    unfold claims
    rw [List.filterMap_append]
    exact List.append_nil _
  | @claimed s history id row time found pending =>
    refine .inr ⟨row, Store.mem_of_drop? s id found, time, pending,
      (Store.mem_updateDrop id hi found).mpr (.inl rfl), ?_⟩
    unfold claims
    rw [List.filterMap_append]
    rfl

/-- What a claim gave is the drop, or what has become of it. -/
theorem Reached.turns_of_claim (h : σ.Reached) :
    ∀ c ∈ σ.claims, c.has .settling = true ∧ ∃ row ∈ σ.store.drops, c.Turns row := by
  induction h with
  | refl => exact fun _ hc => absurd hc List.not_mem_nil
  | @tail σ τ before change ih =>
    have hi := Reached.idsDiffer before
    intro c hc
    have hold (hc : c ∈ σ.claims) :
        c.has .settling = true ∧ ∃ row ∈ τ.store.drops, c.Turns row := by
      obtain ⟨settling, row, hrow, hturns⟩ := ih c hc
      obtain ⟨e, he, hmore⟩ := (drops_change change).forward hi hrow
      exact ⟨settling, e, he, hturns.trans hmore⟩
    rcases claims_change hi change with hsame | ⟨row, -, time, -, hmem, hadded⟩
    · exact hold (hsame ▸ hc)
    · rw [hadded, List.mem_append, List.mem_singleton] at hc
      rcases hc with hc | rfl
      · exact hold hc
      · exact ⟨rfl, _, hmem, .refl⟩

/-- The drop of a claim is what the claim gave, or what has become of it. -/
theorem Reached.turns_of_id (h : σ.Reached) {c row : Drop} (hc : c ∈ σ.claims)
    (hrow : row ∈ σ.store.drops) (hid : row.id = c.id) : c.Turns row := by
  obtain ⟨-, e, he, hturns⟩ := h.turns_of_claim c hc
  rwa [Rows.eq_of_key Drop.id h.idsDiffer hrow he (hid.trans hturns.same.1.symm)]

/-- How a drop comes to be among the drops as it is: by the change that made it so. -/
inductive Arrives (σ τ : State) (e : Drop) : Prop
  | created (pending : e.has .pending = true)
  | claimed (settling : e.has .settling = true) (claim : e ∈ τ.claims)
  | closed (ended : e.has .expired = true ∨ e.has .failed = true)
  | paidOut {desk : Desk} {d row : Drop} {participants : List String} {minimum : Amount}
      {utc : Moment} (given : .claimed d ∈ σ.history)
      (pays : desk.CanPay σ.store (d.payment participants) minimum (some d.id) utc)
      (found : σ.store.drop? d.id = some row)
      (left : τ.store = σ.store.paidOut d participants
        (desk.rowsFor (d.payment participants) utc) (desk.ids desk.nextId) utc)
      (settled : e = row.asSettled (desk.ids desk.nextId) participants.length
        (d.payment participants).split.moved utc)

/-- A drop was there before a change, or arrives by it. -/
theorem arrives_of_change (hi : σ.store.IdsDiffer) (change : Change σ τ) {e : Drop}
    (he : e ∈ τ.store.drops) : e ∈ σ.store.drops ∨ Arrives σ τ e := by
  cases change with
  | opened =>
    rw [Store.drops_withAccount] at he
    exact .inl he
  | set | deposited => exact .inl he
  | tipped =>
    rw [Store.drops_transferred] at he
    exact .inl he
  | created =>
    refine (List.mem_append.mp he).imp_right fun he => .created ?_
    rw [List.mem_singleton.mp he]
    rfl
  | claimed found =>
    rcases (Store.mem_updateDrop _ hi found).mp he with rfl | ⟨he, -⟩
    · exact .inr (.claimed rfl
        (mem_claims.mpr (List.mem_append_right _ (List.mem_singleton.mpr rfl))))
    · exact .inl he
  | paidOut given pays found =>
    rcases (Store.mem_paidOut_iff hi found).mp he with same | ⟨he, -⟩
    · exact .inr (.paidOut given pays found rfl same)
    · exact .inl he
  | @closed _ _ _ _ ending found =>
    rcases (Store.mem_updateDrop _ hi found).mp he with rfl | ⟨he, -⟩
    · refine .inr (.closed ?_)
      cases ending with
      | expired => exact .inl rfl
      | failed => exact .inr rfl
    · exact .inl he

/-! ### What happens once -/

/-- A point in the lives of drops, and a record of who passed it. Nobody who has passed it comes
back, and each entry of the record is made by the change at which its drop passes. -/
structure Passage (Passed : Drop → Prop) (record : State → List Uuid) : Prop where
  start : record .start = []
  stays {d e : Drop} (turn : d.Turn e) (passed : Passed d) : Passed e
  change {σ τ : State} (hi : σ.store.IdsDiffer) (change : Change σ τ) :
    record τ = record σ ∨
      ∃ row ∈ σ.store.drops, ∃ e ∈ τ.store.drops, ¬Passed row ∧ Passed e ∧ e.id = row.id ∧
        record τ = record σ ++ [row.id]

section Passage
variable {Passed : Drop → Prop} {record : State → List Uuid}

theorem Passage.stays_turns (p : Passage Passed record) {d e : Drop} (h : d.Turns e)
    (passed : Passed d) : Passed e := by
  induction h with
  | refl => exact passed
  | tail _ turn ih => exact p.stays turn ih

/-- Whoever is on record has passed. -/
theorem Passage.passed (p : Passage Passed record) (h : σ.Reached) :
    ∀ id ∈ record σ, ∃ row ∈ σ.store.drops, row.id = id ∧ Passed row := by
  induction h with
  | refl =>
    rw [p.start]
    exact fun _ hid => absurd hid List.not_mem_nil
  | @tail σ τ before change ih =>
    have hi := Reached.idsDiffer before
    intro id hid
    have hold (hid : id ∈ record σ) : ∃ row ∈ τ.store.drops, row.id = id ∧ Passed row := by
      obtain ⟨row, hrow, rfl, passed⟩ := ih id hid
      obtain ⟨e, he, hturns⟩ := (drops_change change).forward hi hrow
      exact ⟨e, he, hturns.same.1, p.stays_turns hturns passed⟩
    rcases p.change hi change with hsame | ⟨row, -, e, he, -, passed, heid, hadded⟩
    · exact hold (hsame ▸ hid)
    · rw [hadded, List.mem_append, List.mem_singleton] at hid
      rcases hid with hid | rfl
      · exact hold hid
      · exact ⟨e, he, heid, passed⟩

/-- Nobody is on record twice. -/
theorem Passage.nodup (p : Passage Passed record) (h : σ.Reached) : (record σ).Nodup := by
  induction h with
  | refl =>
    rw [p.start]
    exact List.nodup_nil
  | @tail σ τ before change ih =>
    have hi := Reached.idsDiffer before
    rcases p.change hi change with hsame | ⟨row, hrow, _, -, hnot, -, -, hadded⟩
    · rw [hsame]
      exact ih
    · rw [hadded, List.nodup_append]
      refine ⟨ih, by simp, ?_⟩
      intro a ha b hb hab
      rw [hab, List.mem_singleton.mp hb] at ha
      obtain ⟨other, hother, hid, passed⟩ := p.passed before _ ha
      rw [Rows.eq_of_key Drop.id hi hother hrow hid] at passed
      exact hnot passed

end Passage

theorem passage_claim : Passage (·.has .pending = false) (fun σ => σ.claims.map (·.id)) where
  start := rfl
  stays turn _ := turn.not_pending
  change hi change := by
    rcases claims_change hi change with hsame | ⟨row, hrow, time, pending, hnow, hadded⟩
    · exact .inl (congrArg _ hsame)
    · refine .inr ⟨row, hrow, _, hnow, by simp [pending], rfl, rfl, ?_⟩
      rw [hadded, List.map_append]
      rfl

/-- The drops that were paid out. -/
def payouts (σ : State) : List Uuid :=
  σ.history.filterMap fun
    | .paidOut drop _ => some drop
    | _ => none

theorem mem_payouts {id : Uuid} : id ∈ σ.payouts ↔ ∃ receipt, .paidOut id receipt ∈ σ.history := by
  unfold payouts
  rw [List.mem_filterMap]
  constructor
  · intro h
    obtain ⟨mark, hmark, h⟩ := h
    cases mark with
    | paidOut drop receipt => exact ⟨receipt, Option.some.inj h ▸ hmark⟩
    | deposited | claimed => cases h
  · exact fun ⟨receipt, h⟩ => ⟨_, h, rfl⟩

theorem passage_payout : Passage (·.has .settled = true) payouts where
  start := rfl
  stays turn settled := absurd turn (Drop.IsOver.not_turn (.inl settled))
  change {σ τ} hi change := by
    cases change with
    | opened | set | tipped | created | closed => exact .inl rfl
    | deposited | claimed =>
      left
      unfold payouts
      rw [List.filterMap_append]
      exact List.append_nil _
    | @paidOut s _ desk d row participants _ utc given pays found settling =>
      refine .inr ⟨row, Store.mem_of_drop? s d.id found, _,
        (Store.mem_paidOut_iff hi found).mpr (.inl rfl), ?_, rfl, rfl, ?_⟩
      · intro settled
        cases Drop.eq_of_has settled settling
      · unfold payouts
        rw [List.filterMap_append, Store.id_of_drop? s d.id found]
        rfl

end State
end TipJar
