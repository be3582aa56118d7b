import Mathlib.Data.List.Destutter
import TipJar.Proofs.Payability

/-! The lifecycle, call by call.

The tables know drops only through six calls: one creates a drop, five move drops
on. A run interleaves them in any order, on any drops, won or lost, with whatever
else leaves the drops alone. Three things hold all along: a drop's statuses are a
beginning of one course, what it was created with stays, and the columns that are
filled are the ones its status asks for. The only thing asked of the callers is
that a drop is marked settled by a transfer of its own amount. -/
namespace TipJar
open Ledger

/-! ### Calls -/

/-- Whether a receipt is the one of a transfer of an amount. -/
def Transfer.Receipt.IsOf (r : Receipt) (amount : Amount) : Prop :=
  ∃ (desk after : Desk) (i : Intent) (minimum : Amount) (except : Option Uuid),
    i.amount = amount ∧ (execute i minimum except).Gives desk r after

/-- A call that writes drops. -/
inductive DropCall
  | create (r : DropRequest)
  | claim (id : Uuid) (time : Moment)
  | settle (id : Uuid) (receipt : Transfer.Receipt) (time : Moment)
  | expire (id : Uuid) (time : Moment)
  | fail (id : Uuid) (reason : String) (time : Moment) (participants : Option Int)
  | failStalled (asOf : Moment) (seconds : Value)

namespace DropCall

/-- The work of a call. -/
def work : DropCall → Work Unit
  | create r => do
    let _ ← createDrop r
  | claim id time => do
    let _ ← Ledger.claim id time
  | settle id receipt time => do
    let _ ← markSettled id receipt.event receipt.destinations.length receipt.moved time
  | expire id time => do
    let _ ← markExpired id time
  | fail id reason time participants => do
    let _ ← markFailed id reason time participants
  | failStalled asOf seconds => do
    let _ ← Ledger.failStalled asOf seconds

/-- What is asked of the callers: a drop is settled by a transfer of its own amount. -/
def Allowed (s : Store) : DropCall → Prop
  | settle id receipt _ => ∀ row, s.drop? id = some row → receipt.IsOf row.amount
  | _ => True

end DropCall

/-- The tables after a call, in a unit of work of its own. -/
def Ledger.Store.afterCall (s : Store) (call : DropCall) (operation : String) (desk : Desk) :
    Store :=
  (((⟨s, []⟩ : State).begun desk).transact operation call.work).2.tables.getD s

/-- A call on drops, or whatever else leaves the drops alone. -/
inductive DropStep (s : Store) : Store → Prop
  | call (call : DropCall) (allowed : call.Allowed s) (operation : String) (desk : Desk) :
      DropStep s (s.afterCall call operation desk)
  | other {t : Store} (same : t.drops = s.drops) : DropStep s t

namespace Drop

/-! ### What a drop keeps, and what it fills in -/

/-- Whether a drop is the same as another in all that drops are created with. -/
structure SameOrigin (d e : Drop) : Prop where
  id : e.id = d.id
  initiator : e.initiator = d.initiator
  token : e.token = d.token
  amount : e.amount = d.amount
  channel : e.channel = d.channel
  message : e.message = d.message
  openedAt : e.openedAt = d.openedAt
  deadline : e.deadline = d.deadline

variable {d e f : Drop}

@[refl] theorem SameOrigin.refl (d : Drop) : d.SameOrigin d :=
  ⟨rfl, rfl, rfl, rfl, rfl, rfl, rfl, rfl⟩

theorem SameOrigin.trans (h : d.SameOrigin e) (h' : e.SameOrigin f) : d.SameOrigin f :=
  ⟨h'.id.trans h.id, h'.initiator.trans h.initiator, h'.token.trans h.token,
    h'.amount.trans h.amount, h'.channel.trans h.channel, h'.message.trans h.message,
    h'.openedAt.trans h.openedAt, h'.deadline.trans h.deadline⟩

/-- No step in the life of a drop touches what it was created with. -/
theorem Turn.sameOrigin (h : Turn d e) : d.SameOrigin e := by
  cases h with
  | claimed | settled => exact ⟨rfl, rfl, rfl, rfl, rfl, rfl, rfl, rfl⟩
  | closed _ ending => cases ending <;> exact ⟨rfl, rfl, rfl, rfl, rfl, rfl, rfl, rfl⟩

/-- Whether the columns that a drop fills are those its status asks for. -/
def Fits (d : Drop) : Prop :=
  match d.status with
  | .known .pending =>
    d.claimedAt = none ∧ d.finishedAt = none ∧ d.event = none ∧ d.participants = none ∧
      d.moved = none ∧ d.reason = none
  | .known .settling =>
    d.claimedAt.isSome ∧ d.finishedAt = none ∧ d.event = none ∧ d.participants = none ∧
      d.moved = none ∧ d.reason = none
  | .known .settled =>
    d.claimedAt.isSome ∧ d.finishedAt.isSome ∧ d.event.isSome ∧ d.reason = none ∧
      ∃ (n : Nat) (moved : Amount), d.participants = some (n : Int) ∧ 1 ≤ n ∧
        d.moved = some moved ∧ moved ≤ d.amount ∧ d.amount.units - moved.units < n
  | .known .expired =>
    d.claimedAt.isSome ∧ d.finishedAt.isSome ∧ d.event = none ∧ d.participants = some 0 ∧
      d.moved = some .zero ∧ d.reason = none
  | .known .failed =>
    d.claimedAt.isSome ∧ d.finishedAt.isSome ∧ d.event = none ∧ d.moved = none ∧
      ∃ reason, d.reason = some reason ∧ reason.length ≤ 200
  | .other _ => False

theorem Fits.of_pending (h : d.Fits) (pending : d.has .pending = true) :
    d.claimedAt = none ∧ d.finishedAt = none ∧ d.event = none ∧ d.participants = none ∧
      d.moved = none ∧ d.reason = none := by
  unfold Fits at h
  rwa [status_of_has pending] at h

theorem Fits.of_settling (h : d.Fits) (settling : d.has .settling = true) :
    d.claimedAt.isSome ∧ d.finishedAt = none ∧ d.event = none ∧ d.participants = none ∧
      d.moved = none ∧ d.reason = none := by
  unfold Fits at h
  rwa [status_of_has settling] at h

/-- A step in the life of a drop that leaves the right columns filled. -/
def Proceeds (d e : Drop) : Prop := d.Turn e ∧ (d.Fits → e.Fits)

theorem proceeds_asClaimed (pending : d.has .pending = true) (time : Moment) :
    d.Proceeds (d.asClaimed time) := by
  refine ⟨.claimed pending time, fun fits => ?_⟩
  obtain ⟨-, rest⟩ := fits.of_pending pending
  exact ⟨rfl, rest⟩

theorem proceeds_asSettled (settling : d.has .settling = true) {receipt : Transfer.Receipt}
    (own : receipt.IsOf d.amount) (time : Moment) :
    d.Proceeds (d.asSettled receipt.event receipt.destinations.length receipt.moved time) := by
  refine ⟨.settled settling _ _ _ time, fun fits => ?_⟩
  obtain ⟨claimedAt, -, -, -, -, reason⟩ := fits.of_settling settling
  obtain ⟨desk, after, i, minimum, except, hamount, hgives⟩ := own
  obtain ⟨_, _, -, pays, rfl, -⟩ := execute_gives.mp hgives
  have hsome := List.length_pos_of_ne_nil (Transfer.Intent.check_ok.mp pays.proper).1
  -- What does not divide is less than what it was divided by.
  have hsplit : i.split.moved.units + i.amount.units % i.destinations.length = i.amount.units :=
    congrArg Amount.units (Transfer.Split.moved_add_remainder i.amount i.destinations.length)
  have hless := Nat.mod_lt i.amount.units hsome
  refine ⟨claimedAt, rfl, rfl, reason, i.destinations.length, i.split.moved, rfl, hsome, rfl, ?_,
    ?_⟩
  · show i.split.moved.units ≤ d.amount.units
    rw [← hamount]
    exact Nat.le.intro hsplit
  · show d.amount.units - i.split.moved.units < i.destinations.length
    rw [← hamount]
    omega

theorem proceeds_asExpired (settling : d.has .settling = true) (time : Moment) :
    d.Proceeds (d.asExpired time) := by
  refine ⟨.closed settling (.expired time), fun fits => ?_⟩
  obtain ⟨claimedAt, -, event, -, -, reason⟩ := fits.of_settling settling
  exact ⟨claimedAt, rfl, event, rfl, rfl, reason⟩

theorem length_keptReason (reason : String) : (keptReason reason).length ≤ 200 := by
  unfold keptReason
  rw [String.length_ofList]
  exact List.length_take_le reasonLimit reason.toList

theorem proceeds_asFailed (settling : d.has .settling = true) (reason : String)
    (participants : Option Int) (time : Moment) :
    d.Proceeds (d.asFailed (keptReason reason) participants time) := by
  refine ⟨.closed settling (.failed _ participants time), fun fits => ?_⟩
  obtain ⟨claimedAt, -, event, -, moved, -⟩ := fits.of_settling settling
  exact ⟨claimedAt, rfl, event, moved, _, rfl, length_keptReason reason⟩

end Drop

/-! ### What one step does -/

namespace Ledger.Store
variable {s t u : Store} {id : Uuid}

/-- Every drop is where it was or has proceeded by one step, and new ones are pending. -/
structure Advances (s t : Store) : Prop where
  different : s.IdsDiffer → t.IdsDiffer
  known : ∀ id d, s.drop? id = some d → ∃ e, t.drop? id = some e ∧ (e = d ∨ d.Proceeds e)
  new : ∀ id e, s.drop? id = none → t.drop? id = some e → e.has .pending = true ∧ e.Fits

theorem advances_of_same (same : t.drops = s.drops) : s.Advances t where
  different := (idsDiffer_congr same).mpr
  known id d found := ⟨d, (drop?_congr id same).trans found, .inl rfl⟩
  new id e absent found := by
    rw [drop?_congr id same, absent] at found
    cases found

/-- What happens to drops is read from drops alone. -/
theorem Advances.congr (h : u.Advances t) (same : u.drops = s.drops) : s.Advances t where
  different hi := h.different ((idsDiffer_congr same).mpr hi)
  known id d found := h.known id d ((drop?_congr id same).trans found)
  new id e absent := h.new id e ((drop?_congr id same).trans absent)

/-- What becomes of a drop when one of them is changed. -/
theorem known_updateDrop {other : Uuid} {d row : Drop} {f : Drop → Drop}
    (found : s.drop? id = some row) (same : ∀ d, (f d).id = d.id) (hd : s.drop? other = some d) :
    ∃ e, (s.updateDrop id f).drop? other = some e ∧ (e = d ∨ (d = row ∧ e = f row)) := by
  rw [drop?_updateDrop s id same]
  by_cases hid : other = id
  · subst hid
    have hrow : d = row := Option.some.inj (hd.symm.trans found)
    exact ⟨f row, by rw [if_pos rfl, found, Option.map_some], .inr ⟨hrow, rfl⟩⟩
  · exact ⟨d, by rw [if_neg hid, hd], .inl rfl⟩

theorem new_updateDrop {other : Uuid} {f : Drop → Drop} (same : ∀ d, (f d).id = d.id)
    (absent : s.drop? other = none) : (s.updateDrop id f).drop? other = none := by
  rw [drop?_updateDrop s id same]
  by_cases hid : other = id
  · subst hid
    rw [if_pos rfl, absent, Option.map_none]
  · rw [if_neg hid, absent]

theorem advances_updateDrop {row : Drop} {f : Drop → Drop} (found : s.drop? id = some row)
    (same : ∀ d, (f d).id = d.id) (proceeds : row.Proceeds (f row)) :
    s.Advances (s.updateDrop id f) where
  different := idsDiffer_updateDrop id same
  known other d hd := by
    obtain ⟨e, he, rfl | ⟨rfl, rfl⟩⟩ := known_updateDrop found same hd
    · exact ⟨e, he, .inl rfl⟩
    · exact ⟨f d, he, .inr proceeds⟩
  new other e absent he := by
    rw [new_updateDrop same absent] at he
    cases he

theorem advances_withDrop {row : Drop} (fresh : s.drop? row.id = none)
    (pending : row.has .pending = true) (fits : row.Fits) : s.Advances (s.withDrop row) where
  different hi := by
    show ((s.drops ++ [row]).map (·.id)).Nodup
    rw [List.map_append, List.nodup_append]
    refine ⟨hi, List.nodup_singleton _, ?_⟩
    intro a ha b hb hab
    obtain ⟨d, hd, rfl⟩ := List.mem_map.mp ha
    rw [List.map_singleton, List.mem_singleton] at hb
    exact (Rows.find?_eq_none Drop.id).mp fresh d hd (hab.trans hb)
  known id d found := by
    refine ⟨d, ?_, .inl rfl⟩
    show Rows.find? Drop.id (s.drops ++ [row]) id = some d
    rw [Rows.find?_append, ← drop?_eq, found, Option.some_or]
  new id e absent found := by
    change Rows.find? Drop.id (s.drops ++ [row]) id = some e at found
    rw [Rows.find?_append, ← drop?_eq, absent, Option.none_or] at found
    rw [List.mem_singleton.mp (Rows.mem_of_find? Drop.id found)]
    exact ⟨pending, fits⟩

/-- Some settling drops are over, and all others are as they were. -/
structure Ends (s t : Store) : Prop where
  different : s.IdsDiffer → t.IdsDiffer
  known : ∀ id d, s.drop? id = some d → ∃ e, t.drop? id = some e ∧
    (e = d ∨ (d.has .settling = true ∧ e.has .settling = false ∧ d.Proceeds e))
  new : ∀ id, s.drop? id = none → t.drop? id = none

theorem Ends.trans (h : s.Ends t) (h' : t.Ends u) : s.Ends u where
  different hi := h'.different (h.different hi)
  known id d found := by
    obtain ⟨e, he, hstep⟩ := h.known id d found
    obtain ⟨f, hf, hnext⟩ := h'.known id e he
    refine ⟨f, hf, ?_⟩
    rcases hstep with rfl | ⟨settling, ended, proceeds⟩
    · exact hnext
    · -- What is over is over: the second time nothing happens to this drop.
      rcases hnext with rfl | ⟨again, -⟩
      · exact .inr ⟨settling, ended, proceeds⟩
      · rw [ended] at again
        cases again
  new id absent := h'.new id (h.new id absent)

theorem Ends.advances (h : s.Ends t) : s.Advances t where
  different := h.different
  known id d found := by
    obtain ⟨e, he, hstep⟩ := h.known id d found
    exact ⟨e, he, hstep.imp_right (·.2.2)⟩
  new id e absent found := by
    rw [h.new id absent] at found
    cases found

theorem Interrupts.ends (h : s.Interrupts t) : s.Ends t := by
  cases h with
  | @interrupted id row found settling utc =>
    have same (d : Drop) : (d.asFailed (keptReason interruptedReason) none utc).id = d.id := rfl
    refine ⟨idsDiffer_updateDrop id same, fun other d hd => ?_, fun _ => new_updateDrop same⟩
    obtain ⟨e, he, rfl | ⟨rfl, rfl⟩⟩ := known_updateDrop found same hd
    · exact ⟨e, he, .inl rfl⟩
    · exact ⟨_, he, .inr ⟨settling, rfl,
        Drop.proceeds_asFailed settling interruptedReason none utc⟩⟩

/-- Interrupted settlements are failed one by one, and no drop is failed twice. -/
theorem ends_of_interrupts (h : Relation.ReflTransGen Interrupts s t) : s.Ends t := by
  induction h with
  | refl => exact ⟨fun hi => hi, fun _ d found => ⟨d, found, .inl rfl⟩, fun _ absent => absent⟩
  | tail _ interrupts ih => exact ih.trans interrupts.ends

end Ledger.Store

open Ledger.Store in
/-- What a call that succeeds does to the drops. -/
theorem DropCall.advances {call : DropCall} {s : Store} {desk after : Desk}
    (allowed : call.Allowed s) (hs : desk.Holds s) (h : call.work.Gives desk () after) :
    ∃ t, after.Holds t ∧ s.Advances t := by
  cases call with
  | create r =>
    simp only [work, Work.gives_bind, createDrop_gives, Work.gives_pure] at h
    obtain ⟨_, _, ⟨t, initiator, openedAt, deadline, ht, creates, -, rfl⟩, -, rfl⟩ := h
    obtain rfl := hs.unique ht
    have hopened : (s.withAccount initiator).drops = s.drops := s.drops_withAccount initiator
    have hfits : (r.row (desk.ids desk.nextId) initiator openedAt deadline).Fits :=
      ⟨rfl, rfl, rfl, rfl, rfl, rfl⟩
    exact ⟨_, hs.afterCreate _ _ _,
      (advances_withDrop creates.withAccount.fresh rfl hfits).congr hopened⟩
  | claim id time =>
    simp only [work, Work.gives_bind, claim_gives, Work.gives_pure] at h
    obtain ⟨_, _, ⟨utc, t, row, -, ht, hrow, hhas, -, rfl⟩, -, rfl⟩ := h
    obtain rfl := hs.unique ht
    exact ⟨_, hs.keep _,
      advances_updateDrop hrow (fun _ => rfl) (Drop.proceeds_asClaimed hhas utc)⟩
  | settle id receipt time =>
    simp only [work, Work.gives_bind, markSettled_gives, Work.gives_pure] at h
    obtain ⟨_, _, ⟨utc, t, row, -, -, ht, hrow, hhas, -, rfl⟩, -, rfl⟩ := h
    obtain rfl := hs.unique ht
    exact ⟨_, hs.keep _, advances_updateDrop hrow (fun _ => rfl)
      (Drop.proceeds_asSettled hhas (allowed row hrow) utc)⟩
  | expire id time =>
    simp only [work, Work.gives_bind, markExpired_gives, Work.gives_pure] at h
    obtain ⟨_, _, ⟨utc, t, row, -, ht, hrow, hhas, -, rfl⟩, -, rfl⟩ := h
    obtain rfl := hs.unique ht
    exact ⟨_, hs.keep _,
      advances_updateDrop hrow (fun _ => rfl) (Drop.proceeds_asExpired hhas utc)⟩
  | fail id reason time participants =>
    simp only [work, Work.gives_bind, markFailed_gives, Work.gives_pure] at h
    obtain ⟨_, _, ⟨utc, t, row, -, -, ht, hrow, hhas, -, rfl⟩, -, rfl⟩ := h
    obtain rfl := hs.unique ht
    exact ⟨_, hs.keep _, advances_updateDrop hrow (fun _ => rfl)
      (Drop.proceeds_asFailed hhas reason participants utc)⟩
  | failStalled asOf seconds =>
    simp only [work, Work.gives_bind, Work.gives_pure] at h
    obtain ⟨_, _, h, -, rfl⟩ := h
    obtain ⟨t, ht, hinterrupts⟩ := failStalled_steps hs h
    exact ⟨t, ht, (ends_of_interrupts hinterrupts).advances⟩

/-- Every step of a run takes every drop one step further at most. -/
theorem DropStep.advances {s t : Store} (h : DropStep s t) : s.Advances t := by
  cases h with
  | other same => exact Store.advances_of_same same
  | call call allowed operation desk =>
    unfold Store.afterCall
    rcases hdone : ((⟨s, []⟩ : State).begun desk).transact operation call.work with
      ⟨why | done, after⟩
    · have htables : after.tables = some s := Desk.tables_transact_error hdone
      show s.Advances (after.tables.getD s)
      rw [htables, Option.getD_some]
      exact Store.advances_of_same rfl
    · obtain ⟨t, ht, hadvances⟩ := call.advances allowed (State.holds_begun ⟨s, []⟩ desk)
        (State.transact_begun_ok.mp hdone).1
      show s.Advances (after.tables.getD s)
      rw [ht.tables, Option.getD_some]
      exact hadvances

/-! ### What a run does -/

namespace Drop.Status

/-- What comes after a status. -/
inductive Next : Status → Status → Prop
  | claimed : Next pending settling
  | ended {s : Status} (terminal : s.isTerminal = true) : Next settling s

theorem Next.ne {s t : Status} (h : Next s t) : s ≠ t := by
  rintro rfl
  cases h with
  | ended terminal => cases terminal

/-- What is left of a life that ends in one way. -/
def course (last : Status) : Status → List Status
  | pending => [pending, settling, last]
  | settling => [settling, last]
  | s => [s]

/-- Whether statuses are the beginning of what is left of a life. -/
def IsCourse (s : Status) (statuses : List (Stored Status)) : Prop :=
  ∃ last, last.isTerminal = true ∧ statuses <+: (course last s).map .known

theorem isCourse_single (s : Status) : s.IsCourse [.known s] := by
  refine ⟨settled, rfl, ?_⟩
  cases s <;> exact ⟨_, rfl⟩

theorem IsCourse.cons {s t : Status} {statuses : List (Stored Status)} (next : Next s t)
    (h : t.IsCourse statuses) : s.IsCourse (.known s :: statuses) := by
  obtain ⟨last, terminal, hprefix⟩ := h
  cases next with
  | claimed => exact ⟨last, terminal, List.cons_prefix_cons.mpr ⟨rfl, hprefix⟩⟩
  | ended ended =>
    -- The life ends in the status that comes next.
    refine ⟨t, ended, List.cons_prefix_cons.mpr ⟨rfl, ?_⟩⟩
    cases t with
    | pending | settling => cases ended
    | settled | expired | failed => exact hprefix

end Drop.Status

/-- A step in a life is one from its status to the next. -/
theorem Drop.Turn.next {d e : Drop} (h : d.Turn e) :
    ∃ s t, d.status = .known s ∧ e.status = .known t ∧ Status.Next s t := by
  cases h with
  | claimed pending => exact ⟨_, _, status_of_has pending, rfl, .claimed⟩
  | settled settling => exact ⟨_, _, status_of_has settling, rfl, .ended rfl⟩
  | closed settling ending =>
    cases ending <;> exact ⟨_, _, status_of_has settling, rfl, .ended rfl⟩

namespace Ledger.Store
variable {s t : Store} {id : Uuid} {rest : List Store}

/-- The statuses that a drop has had one after the other. -/
def statuses (run : List Store) (id : Uuid) : List (Stored Drop.Status) :=
  ((run.filterMap (·.drop? id)).map (·.status)).destutter (· ≠ ·)

/-- A drop that is there goes on with its course. -/
theorem isCourse_of_found {d : Drop} {status : Drop.Status} (h : (s :: rest).IsChain Advances)
    (found : s.drop? id = some d) (hstatus : d.status = .known status) :
    status.IsCourse (statuses (s :: rest) id) := by
  induction rest generalizing s d status with
  | nil =>
    have hone : statuses [s] id = [.known status] := by simp [statuses, found, hstatus]
    rw [hone]
    exact Drop.Status.isCourse_single status
  | cons t rest ih =>
    obtain ⟨hstep, hrest⟩ := List.isChain_cons_cons.mp h
    obtain ⟨e, he, rfl | ⟨turn, -⟩⟩ := hstep.known id d found
    · have hsame : statuses (s :: t :: rest) id = statuses (t :: rest) id := by
        simp [statuses, found, he, List.destutter_cons']
      rw [hsame]
      exact ih hrest he hstatus
    · obtain ⟨before, after, hbefore, hafter, next⟩ := turn.next
      obtain rfl : before = status := Stored.known.inj (hbefore.symm.trans hstatus)
      have hmore : statuses (s :: t :: rest) id = .known before :: statuses (t :: rest) id := by
        simp [statuses, found, he, hbefore, hafter, next.ne, List.destutter_cons']
      rw [hmore]
      exact (ih hrest he hafter).cons next

/-- A drop that is not there yet has its whole course before it. -/
theorem isCourse_of_absent (h : (s :: rest).IsChain Advances) (absent : s.drop? id = none) :
    Drop.Status.pending.IsCourse (statuses (s :: rest) id) := by
  induction rest generalizing s with
  | nil =>
    have hnone : statuses [s] id = [] := by simp [statuses, absent]
    rw [hnone]
    exact ⟨.settled, rfl, List.nil_prefix⟩
  | cons t rest ih =>
    obtain ⟨hstep, hrest⟩ := List.isChain_cons_cons.mp h
    have hskip : statuses (s :: t :: rest) id = statuses (t :: rest) id := by
      simp [statuses, absent]
    rw [hskip]
    cases ht : t.drop? id with
    | none => exact ih hrest ht
    | some e =>
      exact isCourse_of_found hrest ht (Drop.status_of_has (hstep.new id e absent ht).1)

/-- Every drop is kept: with what it was created with, and as it is once it is over. -/
def Keeps (s t : Store) : Prop :=
  ∀ id d, s.drop? id = some d →
    ∃ e, t.drop? id = some e ∧ d.SameOrigin e ∧ (d.IsOver → e = d)

instance : IsTrans Store Keeps where
  trans s t u h h' id d found := by
    obtain ⟨e, he, same, stays⟩ := h id d found
    obtain ⟨f, hf, same', stays'⟩ := h' id e he
    refine ⟨f, hf, same.trans same', fun ended => ?_⟩
    obtain rfl := stays ended
    exact stays' ended

theorem Advances.keeps (h : s.Advances t) : s.Keeps t := by
  intro id d found
  obtain ⟨e, he, rfl | ⟨turn, -⟩⟩ := h.known id d found
  · exact ⟨e, he, .refl e, fun _ => rfl⟩
  · exact ⟨e, he, turn.sameOrigin, fun ended => absurd turn ended.not_turn⟩

/-- Whether every drop has an identifier of its own and the right columns filled. -/
structure IsTidy (s : Store) : Prop where
  different : s.IdsDiffer
  fits : ∀ d ∈ s.drops, d.Fits

theorem Advances.isTidy (h : s.Advances t) (tidy : s.IsTidy) : t.IsTidy where
  different := h.different tidy.different
  fits e he := by
    have hfound : t.drop? e.id = some e := drop?_of_mem (h.different tidy.different) he
    cases hs : s.drop? e.id with
    | none => exact (h.new e.id e hs hfound).2
    | some d =>
      have hd : d.Fits := tidy.fits d (mem_of_drop? s e.id hs)
      obtain ⟨f, hf, hstep⟩ := h.known e.id d hs
      obtain rfl : f = e := Option.some.inj (hf.symm.trans hfound)
      rcases hstep with rfl | ⟨-, hfits⟩
      · exact hd
      · exact hfits hd

theorem isTidy_of_chain (h : (s :: rest).IsChain Advances) (tidy : s.IsTidy) :
    ∀ t ∈ s :: rest, t.IsTidy := by
  induction rest generalizing s with
  | nil => simpa using tidy
  | cons t rest ih =>
    obtain ⟨hstep, hrest⟩ := List.isChain_cons_cons.mp h
    exact List.forall_mem_cons.mpr ⟨tidy, ih hrest (hstep.isTidy tidy)⟩

end Ledger.Store

/-- Whatever calls are made on drops, in whatever order: the statuses of each drop are a beginning
of its course, every drop is kept with what it was created with and as it is once it is over, and
has the columns filled that its status asks for. -/
theorem DropStep.drops_keep_lifecycle {rest : List Store}
    (h : (Store.empty :: rest).IsChain DropStep) :
    (∀ id, ∃ last : Drop.Status, last.isTerminal = true ∧
        Store.statuses (Store.empty :: rest) id <+:
          [.known .pending, .known .settling, .known last]) ∧
      (Store.empty :: rest).Pairwise (fun s t => ∀ id d, s.drop? id = some d →
        ∃ e, t.drop? id = some e ∧ d.SameOrigin e ∧ (d.IsOver → e = d)) ∧
      ∀ s ∈ Store.empty :: rest, s.IdsDiffer ∧ ∀ d ∈ s.drops, d.Fits := by
  have hchain := h.imp fun _ _ => DropStep.advances
  have htidy : Store.empty.IsTidy := ⟨List.nodup_nil, fun _ hd => absurd hd List.not_mem_nil⟩
  refine ⟨fun id => Store.isCourse_of_absent hchain rfl, ?_, fun s hs => ?_⟩
  · exact (List.isChain_iff_pairwise (R := Store.Keeps)).mp
      (hchain.imp fun _ _ => Store.Advances.keeps)
  · exact ⟨(Store.isTidy_of_chain hchain htidy s hs).different,
      (Store.isTidy_of_chain hchain htidy s hs).fits⟩

namespace Sample

/-- The receipt of the payment of Alice's drop. -/
def receipt : Transfer.Receipt :=
  .ofSplit (.ofNat 3) (drop.payment guests) (drop.payment guests).split deadline

theorem receipt_isOf : receipt.IsOf ⟨7⟩ := by
  have pays : (claimed.begun (desk 3)).CanPay claimed.store (drop.payment guests)
      sweeper.minimum (some drop.id) deadline :=
    contained_claimed.canPay mem_claimed rfl (by decide) (by decide) named_guests (by decide)
      (by decide) (Moment.isStoredAs_self rfl) ⟨by decide +kernel, by decide +kernel⟩
  exact ⟨_, _, drop.payment guests, sweeper.minimum, some drop.id, rfl,
    execute_gives.mpr ⟨claimed.store, deadline, claimed.holds_begun _, pays, rfl, rfl⟩⟩

def opened : Store := funded.store.afterCall (.create request) "create_reactdrop" (desk 1)

def taken : Store := opened.afterCall (.claim (.ofNat 1) deadline) "claim_reactdrop" (desk 2)

def settled : Store :=
  taken.afterCall (.settle (.ofNat 1) receipt deadline) "settle_reactdrop" (desk 3)

end Sample

/-- Alice's drop is pending, settling and settled, and its columns fit each time. -/
theorem DropStep.sample_lifecycle :
    Store.statuses [.empty, Sample.funded.store, Sample.opened, Sample.taken, Sample.settled]
        (.ofNat 1) = [.known .pending, .known .settling, .known .settled] ∧
      ∀ s ∈ [.empty, Sample.funded.store, Sample.opened, Sample.taken, Sample.settled],
        s.IdsDiffer ∧ ∀ d ∈ s.drops, d.Fits := by
  have hown : (DropCall.settle (.ofNat 1) Sample.receipt Sample.deadline).Allowed Sample.taken := by
    have hamount : ∀ row ∈ Sample.taken.drop? (.ofNat 1), row.amount = ⟨7⟩ := by decide +kernel
    intro row found
    rw [hamount row found]
    exact Sample.receipt_isOf
  have hrun : [Store.empty, Sample.funded.store, Sample.opened, Sample.taken,
      Sample.settled].IsChain DropStep :=
    .cons_cons (.other (by decide +kernel)) (.cons_cons (.call (.create Sample.request) trivial _ _)
      (.cons_cons (.call (.claim (.ofNat 1) Sample.deadline) trivial _ _)
        (.cons_cons (.call _ hown _ _) (.singleton _))))
  exact ⟨by decide +kernel, (drops_keep_lifecycle hrun).2.2⟩

end TipJar
