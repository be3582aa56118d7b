import TipJar.Proofs.Settling

/-! What a sweeper reports.

Every report of a settlement is true of the row, with one exception. A sweeper that
is to pay or expire a drop which somebody else has finished meanwhile says that it
skipped the drop; one that is to fail it says that it failed it. -/
namespace TipJar
open Ledger

namespace Kept

/-- The unit ended the life of a drop, and left it as the row. -/
structure Ends (k : Kept) (id : Uuid) (row : Drop) : Prop where
  settling : ∃ before, k.before.store.drop? id = some before ∧ before.has .settling = true
  ended : row.IsOver
  left : k.after.store.drop? id = some row

variable {k : Kept} {id : Uuid}

theorem Closes.ends {ending : Drop.Ending} (h : k.Closes id ending) :
    ∃ row : Drop, k.Ends id (row.closed ending) := by
  obtain ⟨found, settling, left⟩ := h
  refine ⟨_, ⟨_, found, settling⟩, (Drop.Turn.closed settling ending).isOver settling, ?_⟩
  rw [left, Store.drop?_updateDrop _ _ fun d => d.id_closed ending, if_pos rfl, found]
  rfl

theorem Pays.ends {d : Drop} {participants : List String} {minimum : Amount}
    {receipt : Transfer.Receipt} (h : k.Pays d participants minimum receipt) :
    ∃ (row : Drop) (recipients : Nat) (moved : Amount) (time : Moment),
      k.Ends d.id (row.asSettled receipt.event recipients moved time) := by
  obtain @⟨desk, row, utc, found, settling, pays, rfl, left⟩ := h
  refine ⟨row, participants.length, (d.payment participants).split.moved, utc,
    ⟨row, found, settling⟩, .inl rfl, ?_⟩
  rw [left, Store.drop?_paidOut, if_pos rfl, found]
  rfl

/-- What a unit of work left a drop as, it stays. -/
theorem Ends.stays {row : Drop} {τ : State} (h : k.Ends id row) (reached : k.after.Reached)
    (later : State.Run k.after τ) : τ.store.drop? id = some row :=
  later.drop?_of_isOver reached h.left h.ended

end Kept

namespace Drop.Result

end Drop.Result

namespace Sweeper
variable {W : World} {s : Sweeper} {d : Drop} {σ τ : State} {own : List Kept}
  {result : Drop.Result}

theorem toList_toLower (text : String) : text.toLower.toList = text.toList.map Char.toLower :=
  String.toList_map

/-- The reasons that sweepers give are short enough to be kept as they are. -/
theorem Trouble.kept {reason : String} (h : s.Trouble d reason) : keptReason reason = reason := by
  have hshort (text : String) (short : text.toList.length ≤ reasonLimit) :
      keptReason text = text := by
    unfold keptReason
    rw [List.take_of_length_le short, String.ofList_toList]
  cases h with
  | unanswered | unsaved => exact hshort _ (by decide)
  | @refused why =>
    refine hshort _ ?_
    rw [reasonOf, toList_toLower, List.length_map]
    cases why.category <;> decide

/-- A claimed drop that somebody else has finished is over, and stays as it is. -/
theorem stays_of_elsewhere {μ : State} {row : Drop} (h : σ.Reached) (known : σ.Knows d)
    (settling : d.has .settling = true) (others : State.Run σ μ)
    (found : μ.store.drop? d.id = some row) (elsewhere : row.has .settling = false)
    (later : State.Run μ τ) : row.IsOver ∧ τ.store.drop? d.id = some row := by
  have hreached := h.run others
  obtain ⟨other, hother, hturns⟩ := (known.run h others).found hreached
  obtain rfl := Option.some.inj (found.symm.trans hother)
  rcases hturns.of_settling settling with rfl | ended
  · rw [settling] at elsewhere
    cases elsewhere
  · exact ⟨ended, later.drop?_of_isOver hreached found ended⟩

end Sweeper

/-! ### A failure that comes late

The drop of the small run is claimed. While the platform is asked who took part, the
settlement is taken for interrupted; then the platform does not answer. -/

/-- A world whose store loses nothing. -/
def World.lossless : World := fun _ e b =>
  match e, b with
  | .chore (.transact ..), .error (.refused (.unsaved ..)) => False
  | _, _ => True

theorem World.not_loses_lossless (operation : String) : ¬World.lossless.Loses operation := by
  intro h
  obtain ⟨_, _, _, hnever⟩ := h
  exact hnever

namespace Sample

def interrupted : State :=
  claimed.perform (.failStalled deadline (.int 0)) "fail_stalled_reactdrops" (desk 3)

theorem drop?_created : created.store.drop? (.ofNat 1) =
    some (request.row (.ofNat 1) "alice" opening deadline) := by
  decide +kernel

theorem keeps_claimed :
    created.Keeps (do Ledger.claim (.ofNat 1) (← Work.now)) drop claimed :=
  State.keeps_claim ⟨rfl, rfl⟩ drop?_created rfl "claim_reactdrop"

end Sample

end TipJar
