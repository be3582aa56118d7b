import TipJar.Program.Sweeper
import TipJar.Proofs.Payments

/-! Work on drops, in one line each.

Every change of a drop but its creation is one transition: the drop is there, it
is in the expected status, and the one row becomes the changed row. Paying out is
a transfer and a transition in one unit of work, so it needs what both of them
need. -/
namespace TipJar
namespace Ledger

variable {desk after : Desk}

/-! ### Creation -/

/-- The row of a new drop. -/
def DropRequest.row (r : DropRequest) (id : Uuid) (initiator : String)
    (openedAt deadline : Moment) : Drop :=
  { id, initiator, token := r.token, amount := r.amount, channel := r.channel, message := r.message,
    deadline, status := .known .pending, openedAt, claimedAt := none, finishedAt := none,
    event := none, participants := none, moved := none, reason := none }

/-- The tables with one more drop. -/
def Store.withDrop (s : Store) (row : Drop) : Store := { s with drops := s.drops ++ [row] }

/-- A drop under a new identifier is found under it. -/
theorem Store.drop?_withDrop {s : Store} {row : Drop} (fresh : s.drop? row.id = none) :
    (s.withDrop row).drop? row.id = some row := by
  have hrow : Rows.find? Drop.id [row] row.id = some row := by
    rw [Rows.find?_cons, if_pos rfl]
  unfold withDrop
  rw [drop?_eq, Rows.find?_append, ← drop?_eq, fresh, hrow, Option.none_or]

/-- The desk once a drop is created. -/
def Desk.afterCreate (desk : Desk) (r : DropRequest) (initiator : String) (s : Store) : Desk :=
  ((desk.keep s).skip 1).note .info "batch.reactdrop_repository" "reactdrop_created"
    [("reactdrop_id", .text (desk.ids desk.nextId).text), ("initiator", .text initiator),
     ("amount", .nat r.amount.units), ("deadline", .moment r.deadline)] none

/-- What a drop needs to be created at the desk: an amount that its initiator can spend, a deadline
after its opening, and an identifier of its own. -/
structure Desk.CanCreate (desk : Desk) (s : Store) (r : DropRequest) (initiator : String)
    (openedAt deadline : Moment) : Prop where
  named : checkName r.initiator = .ok initiator
  positive : r.amount.units ≠ 0
  later : (r.deadline.noLater r.openedAt).mapError Fault.ofMoment = .ok false
  summed : (s.held initiator none).units ≤ columnMax
  covered : (s.held initiator none).units + r.amount.units ≤ (s.balance initiator).units
  opened : r.openedAt.IsStoredAs openedAt
  due : r.deadline.IsStoredAs deadline
  fits : r.amount.units ≤ columnMax
  fresh : s.drop? (desk.ids desk.nextId) = none

/-- What is available covers an amount exactly if the balance covers the holds with it. -/
theorem covers_iff {s : Store} {name : String} {except : Option Uuid} {amount : Amount}
    (h : amount.units ≠ 0) :
    ¬(s.view name except).available < amount ↔
      (s.held name except).units + amount.units ≤ (s.balance name).units := by
  rw [Amount.lt_iff, Balance.units_available]
  show ¬(s.balance name).units - (s.held name except).units < amount.units ↔ _
  omega

theorem createDrop_gives {r : DropRequest} {drop : Drop} :
    (createDrop r).Gives desk drop after ↔
      ∃ s initiator openedAt deadline, desk.Holds s ∧
        desk.CanCreate s r initiator openedAt deadline ∧
        r.row (desk.ids desk.nextId) initiator r.openedAt r.deadline = drop ∧
        desk.afterCreate r initiator ((s.withAccount initiator).withDrop
          (r.row (desk.ids desk.nextId) initiator openedAt deadline)) = after := by
  have hdrop (s : Store) (name : String) (id : Uuid) : (s.withAccount name).drop? id = s.drop? id :=
    Store.drop?_congr id (s.drops_withAccount name)
  unfold createDrop
  simp only [Work.gives_guard, Work.gives_guard_store, Work.gives_bind, Work.gives_check,
    Work.gives_flushing, checkAvailable_gives, Work.gives_freshId, Work.gives_stored,
    Work.gives_column, Work.gives_tables, Work.gives_write, Work.gives_note, Work.gives_pure]
  constructor
  · intro h
    obtain ⟨hpositive, later, _, ⟨hlater, rfl⟩, hnot, _, _,
      ⟨s, initiator, hs, hnamed, hsummed, henough, -, rfl⟩, _, _, ⟨_, _, ⟨rfl, rfl⟩, openedAt, _,
        ⟨hopened, rfl⟩, deadline, _, ⟨hdue, rfl⟩, _, _, ⟨-, hfits, rfl⟩, t, _, ⟨ht, rfl⟩, hfresh, _,
        _, ⟨u, hu, rfl⟩, rfl, rfl⟩, _, _, rfl, rfl, rfl⟩ := h
    obtain rfl := ((hs.keep _).skip _).unique ht
    obtain rfl := ht.unique hu
    rw [Bool.not_eq_true] at hnot
    rw [hnot] at hlater
    rw [Option.not_isSome_iff_eq_none, hdrop] at hfresh
    rw [(checkName_ok hnamed).1, Option.getD_some]
    exact ⟨s, initiator, openedAt, deadline, hs,
      ⟨hnamed, hpositive, hlater, hsummed, (covers_iff hpositive).mp henough, hopened, hdue,
        hfits.2, hfresh⟩, rfl, rfl⟩
  · intro h
    obtain ⟨s, initiator, openedAt, deadline, hs, hcan, rfl, rfl⟩ := h
    have hfits := natCast_fits.mpr hcan.fits
    have hinitiator : r.initiator.text?.getD "" = initiator := by
      rw [(checkName_ok hcan.named).1, Option.getD_some]
    have hthere : ((desk.keep (s.withAccount initiator)).skip 1).Holds (s.withAccount initiator) :=
      (hs.keep _).skip 1
    refine ⟨hcan.positive, false, desk, ⟨hcan.later, rfl⟩, Bool.false_ne_true, _, _,
      ⟨s, initiator, hs, hcan.named, hcan.summed, (covers_iff hcan.positive).mpr hcan.covered, rfl,
        rfl⟩, _, _,
      ⟨_, _, ⟨rfl, rfl⟩, openedAt, _, ⟨hcan.opened, rfl⟩, deadline, _, ⟨hcan.due, rfl⟩, ⟨⟩, _,
        ⟨⟨_, hthere⟩, hfits, rfl⟩, _, _, ⟨hthere, rfl⟩, ?_, ⟨⟩, _, ⟨_, hthere, rfl⟩, rfl, rfl⟩,
      ⟨⟩, _, rfl, ?_, ?_⟩
    · rw [hdrop]
      exact Option.not_isSome_iff_eq_none.mpr hcan.fresh
    · rw [hinitiator]; rfl
    · rw [hinitiator]; rfl

theorem Desk.Holds.afterCreate {s : Store} (hs : desk.Holds s) (r : DropRequest)
    (initiator : String) (t : Store) :
    (desk.afterCreate r initiator t).Holds t := ((hs.keep t).skip 1).note ..

/-- Opening the account of its initiator first changes nothing about a new drop. -/
theorem Desk.CanCreate.withAccount {s : Store} {r : DropRequest} {initiator : String}
    {openedAt deadline : Moment} (h : desk.CanCreate s r initiator openedAt deadline) :
    desk.CanCreate (s.withAccount initiator) r initiator openedAt deadline where
  named := h.named
  positive := h.positive
  later := h.later
  summed := by
    rw [Store.held_congr initiator none (s.drops_withAccount initiator)]
    exact h.summed
  covered := by
    rw [Store.balance_withAccount, Store.held_congr initiator none (s.drops_withAccount initiator)]
    exact h.covered
  opened := h.opened
  due := h.due
  fits := h.fits
  fresh := (Store.drop?_congr _ (s.drops_withAccount initiator)).trans h.fresh

/-! ### Transitions -/

theorem transition_gives {id : Uuid} {expected : Drop.Status} {change : Drop → Drop} {drop : Drop} :
    (transition id expected change).Gives desk drop after ↔
      ∃ s row, desk.Holds s ∧ s.drop? id = some row ∧ row.has expected = true ∧
        change row = drop ∧ desk.keep (s.updateDrop id change) = after := by
  unfold transition
  simp only [Work.gives_bind, Work.gives_tables]
  constructor
  · intro h
    obtain ⟨s, _, ⟨hs, rfl⟩, h⟩ := h
    cases hrow : s.drop? id with
    | none => simp [hrow] at h
    | some row =>
      simp only [hrow, Work.gives_ite, Work.gives_bind, Work.gives_write, Work.gives_pure,
        Work.gives_refuse, and_false, or_false] at h
      obtain ⟨hhas, _, _, ⟨t, ht, rfl⟩, hchange, rfl⟩ := h
      obtain rfl := hs.unique ht
      exact ⟨s, row, hs, hrow, hhas, hchange, rfl⟩
  · intro h
    obtain ⟨s, row, hs, hrow, hhas, hchange, rfl⟩ := h
    refine ⟨s, desk, ⟨hs, rfl⟩, ?_⟩
    simp only [hrow, hhas, if_true, Work.gives_bind, Work.gives_write, Work.gives_pure]
    exact ⟨⟨⟩, _, ⟨s, hs, rfl⟩, hchange, rfl⟩

theorem claim_gives {id : Uuid} {time : Moment} {drop : Drop} :
    (claim id time).Gives desk drop after ↔
      ∃ utc s row, time.IsStoredAs utc ∧ desk.Holds s ∧ s.drop? id = some row ∧
        row.has .pending = true ∧ row.asClaimed utc = drop ∧
        desk.keep (s.updateDrop id (·.asClaimed utc)) = after := by
  unfold claim
  simp only [Work.gives_bind, Work.gives_stored, transition_gives]
  constructor
  · intro h
    obtain ⟨utc, _, ⟨htime, rfl⟩, s, row, h⟩ := h
    exact ⟨utc, s, row, htime, h⟩
  · intro h
    obtain ⟨utc, s, row, htime, h⟩ := h
    exact ⟨utc, desk, ⟨htime, rfl⟩, s, row, h⟩

theorem markSettled_gives {id event : Uuid} {recipients : Nat} {moved : Amount} {time : Moment}
    {drop : Drop} :
    (markSettled id event recipients moved time).Gives desk drop after ↔
      ∃ utc s row, time.IsStoredAs utc ∧ moved.units ≤ columnMax ∧ desk.Holds s ∧
        s.drop? id = some row ∧ row.has .settling = true ∧
        row.asSettled event recipients moved utc = drop ∧
        desk.keep (s.updateDrop id (·.asSettled event recipients moved utc)) = after := by
  unfold markSettled
  simp only [Work.gives_bind, Work.gives_stored, Work.gives_column, transition_gives]
  constructor
  · intro h
    obtain ⟨utc, _, ⟨htime, rfl⟩, _, _, ⟨-, hfits, rfl⟩, s, row, h⟩ := h
    exact ⟨utc, s, row, htime, hfits.2, h⟩
  · intro h
    obtain ⟨utc, s, row, htime, hfits, hs, h⟩ := h
    exact ⟨utc, desk, ⟨htime, rfl⟩, ⟨⟩, desk, ⟨⟨s, hs⟩, natCast_fits.mpr hfits, rfl⟩, s, row, hs, h⟩

theorem markExpired_gives {id : Uuid} {time : Moment} {drop : Drop} :
    (markExpired id time).Gives desk drop after ↔
      ∃ utc s row, time.IsStoredAs utc ∧ desk.Holds s ∧ s.drop? id = some row ∧
        row.has .settling = true ∧ row.asExpired utc = drop ∧
        desk.keep (s.updateDrop id (·.asExpired utc)) = after := by
  unfold markExpired
  simp only [Work.gives_bind, Work.gives_stored, transition_gives]
  constructor
  · intro h
    obtain ⟨utc, _, ⟨htime, rfl⟩, s, row, h⟩ := h
    exact ⟨utc, s, row, htime, h⟩
  · intro h
    obtain ⟨utc, s, row, htime, h⟩ := h
    exact ⟨utc, desk, ⟨htime, rfl⟩, s, row, h⟩

/-- The part of a reason that is kept. -/
def keptReason (reason : String) : String := String.ofList (reason.toList.take reasonLimit)

theorem markFailed_gives {id : Uuid} {reason : String} {time : Moment} {participants : Option Int}
    {drop : Drop} :
    (markFailed id reason time participants).Gives desk drop after ↔
      ∃ utc s row, time.IsStoredAs utc ∧
        (∀ n ∈ participants, -columnMax - 1 ≤ n ∧ n ≤ columnMax) ∧ desk.Holds s ∧
        s.drop? id = some row ∧ row.has .settling = true ∧
        row.asFailed (keptReason reason) participants utc = drop ∧
        desk.keep (s.updateDrop id (·.asFailed (keptReason reason) participants utc)) = after := by
  unfold markFailed keptReason
  simp only [Work.gives_bind, Work.gives_stored]
  constructor
  · intro h
    obtain ⟨utc, _, ⟨htime, rfl⟩, h⟩ := h
    cases participants with
    | none =>
      obtain ⟨s, row, h⟩ := transition_gives.mp h
      exact ⟨utc, s, row, htime, nofun, h⟩
    | some n =>
      simp only [Work.gives_bind, Work.gives_column, transition_gives] at h
      obtain ⟨_, _, ⟨-, hfits, rfl⟩, s, row, h⟩ := h
      exact ⟨utc, s, row, htime, fun m hm => Option.some.inj hm ▸ hfits, h⟩
  · intro h
    obtain ⟨utc, s, row, htime, hfits, hs, h⟩ := h
    refine ⟨utc, desk, ⟨htime, rfl⟩, ?_⟩
    cases participants with
    | none => exact transition_gives.mpr ⟨s, row, hs, h⟩
    | some n =>
      simp only [Work.gives_bind, Work.gives_column, transition_gives]
      exact ⟨⟨⟩, desk, ⟨⟨s, hs⟩, hfits n rfl, rfl⟩, s, row, hs, h⟩

theorem findStalled_gives {asOf : Moment} {seconds : Value} {stalled : List Drop} :
    (findStalled asOf seconds).Gives desk stalled after ↔
      ∃ length cutoff utc s, seconds.seconds = .ok length ∧
        Checked.inCalendar (asOf.sub? length) = .ok cutoff ∧ cutoff.IsStoredAs utc ∧ desk.Holds s ∧
        s.stalled utc = stalled ∧ desk = after := by
  unfold findStalled
  simp only [Work.gives_bind, Work.gives_check, Work.gives_stored, Work.gives_read]
  constructor
  · intro h
    obtain ⟨length, _, ⟨hlength, rfl⟩, cutoff, _, ⟨hcutoff, rfl⟩, utc, _, ⟨hutc, rfl⟩, s, h⟩ := h
    exact ⟨length, cutoff, utc, s, hlength, hcutoff, hutc, h⟩
  · intro h
    obtain ⟨length, cutoff, utc, s, hlength, hcutoff, hutc, h⟩ := h
    exact ⟨length, desk, ⟨hlength, rfl⟩, cutoff, desk, ⟨hcutoff, rfl⟩, utc, desk, ⟨hutc, rfl⟩, s, h⟩

/-- A settling drop is failed because its settlement was interrupted. -/
inductive Store.Interrupts (s : Store) : Store → Prop
  | interrupted {id : Uuid} {row : Drop} (found : s.drop? id = some row)
      (settling : row.has .settling = true) (utc : Moment) :
      Interrupts s (s.updateDrop id (·.asFailed (keptReason interruptedReason) none utc))

/-- Interrupted settlements are failed one after another. -/
theorem failStalled_steps {asOf : Moment} {seconds : Value} {failed : List Drop} {s : Store}
    (hs : desk.Holds s) (h : (failStalled asOf seconds).Gives desk failed after) :
    ∃ t, after.Holds t ∧ Relation.ReflTransGen Store.Interrupts s t := by
  obtain ⟨_, _, hfound, heach⟩ := Work.gives_bind.mp h
  obtain ⟨_, _, _, _, -, -, -, -, -, rfl⟩ := findStalled_gives.mp hfound
  refine Work.steps_of_mapM ?_ hs heach
  intro _ _ s d _ hs h
  simp only [Work.gives_bind, markFailed_gives, Work.gives_note, Work.gives_pure] at h
  obtain ⟨_, _, ⟨utc, t, row, -, -, ht, hrow, hhas, -, rfl⟩, _, _, rfl, -, rfl⟩ := h
  obtain rfl := hs.unique ht
  exact ⟨_, (hs.keep _).note .., .interrupted hrow hhas utc⟩

end Ledger

/-! ### Payouts -/

/-- The transfer that pays a drop out. -/
def Drop.payment (d : Drop) (participants : List String) : Transfer.Intent :=
  ⟨d.initiator, participants, d.amount, .drop⟩

namespace Ledger

/-- The tables once a drop is paid out. -/
def Store.paidOut (s : Store) (d : Drop) (participants : List String) (rows : List Entry)
    (event : Uuid) (utc : Moment) : Store :=
  (s.transferred (d.payment participants) rows).updateDrop d.id
    (·.asSettled event participants.length (d.payment participants).split.moved utc)

/-- Settling a drop touches neither accounts nor entries. -/
theorem Store.account?_paidOut (s : Store) (d : Drop) (participants : List String)
    (rows : List Entry) (event : Uuid) (utc : Moment) (name : String) :
    (s.paidOut d participants rows event utc).account? name =
      (s.transferred (d.payment participants) rows).account? name := rfl

theorem Store.balance_paidOut (s : Store) (d : Drop) (participants : List String)
    (rows : List Entry) (event : Uuid) (utc : Moment) (name : String) :
    (s.paidOut d participants rows event utc).balance name =
      (s.transferred (d.payment participants) rows).balance name := rfl

theorem Store.custodial_paidOut (s : Store) (d : Drop) (participants : List String)
    (rows : List Entry) (event : Uuid) (utc : Moment) :
    (s.paidOut d participants rows event utc).custodial =
      (s.transferred (d.payment participants) rows).custodial := rfl

theorem Store.entries_paidOut (s : Store) (d : Drop) (participants : List String)
    (rows : List Entry) (event : Uuid) (utc : Moment) :
    (s.paidOut d participants rows event utc).entries = s.entries ++ rows :=
  s.entries_transferred rows

/-- Of the drops, only the one that is paid out is another one. -/
theorem Store.drop?_paidOut (s : Store) (d : Drop) (participants : List String)
    (rows : List Entry) (event : Uuid) (utc : Moment) (other : Uuid) :
    (s.paidOut d participants rows event utc).drop? other =
      if other = d.id then (s.drop? d.id).map
        (·.asSettled event participants.length (d.payment participants).split.moved utc)
      else s.drop? other := by
  have hmoved (id : Uuid) : (s.transferred (d.payment participants) rows).drop? id = s.drop? id :=
    Store.drop?_congr id (s.drops_transferred rows)
  rw [← hmoved d.id, ← hmoved other]
  refine Store.drop?_updateDrop _ d.id ?_ other
  exact fun _ => rfl

theorem payOut_gives {desk after : Desk} {sweeper : Sweeper} (hexecute : sweeper.execute = execute)
    {d : Drop} {participants : List String} {receipt : Transfer.Receipt} :
    (sweeper.payOut d participants).Gives desk receipt after ↔
      ∃ s utc row, desk.Holds s ∧
        desk.CanPay s (d.payment participants) sweeper.minimum (some d.id) utc ∧
        s.drop? d.id = some row ∧ row.has .settling = true ∧
        .ofSplit (desk.ids desk.nextId) (d.payment participants) (d.payment participants).split
          desk.now = receipt ∧
        (desk.afterTransfer (d.payment participants)
            (s.transferred (d.payment participants)
              (desk.rowsFor (d.payment participants) utc))).keep
          (s.paidOut d participants (desk.rowsFor (d.payment participants) utc)
            (desk.ids desk.nextId) utc) = after := by
  have hdrop (s : Store) (rows : List Entry) :
      (s.transferred (d.payment participants) rows).drop? d.id = s.drop? d.id :=
    Store.drop?_congr d.id (s.drops_transferred rows)
  unfold Sweeper.payOut
  rw [hexecute]
  simp only [Work.gives_bind, execute_gives, markSettled_gives, Work.gives_pure]
  constructor
  · intro h
    obtain ⟨_, _, ⟨s, utc, hs, hcan, rfl, rfl⟩, _, _,
      ⟨utc', t, row, htime, -, ht, hrow, hhas, -, rfl⟩, hreceipt, rfl⟩ := h
    obtain rfl := (hs.afterTransfer _ _).unique ht
    obtain rfl : utc = utc' := Option.some.inj (hcan.timed.2.symm.trans htime.2)
    refine ⟨s, utc, row, hs, hcan, ?_, hhas, hreceipt, rfl⟩
    rw [← hrow]
    exact (hdrop s _).symm
  · intro h
    obtain ⟨s, utc, row, hs, hcan, hrow, hhas, hreceipt, rfl⟩ := h
    refine ⟨_, _, ⟨s, utc, hs, hcan, rfl, rfl⟩, _, _,
      ⟨utc, _, row, hcan.timed, hcan.fits, hs.afterTransfer _ _, ?_, hhas, rfl, rfl⟩, hreceipt, rfl⟩
    rw [← hrow]
    exact hdrop s _

end Ledger
end TipJar
