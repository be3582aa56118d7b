import TipJar.Program.Sweeper
import TipJar.Proofs.Nesting
import TipJar.Proofs.Work

/-! Nobody keeps what a command has bound.

A command, a settlement and a transfer bind identifiers while they are under way, one
inside the other. Each of them is balanced: whatever it returns and wherever it fails, the
identifiers in force are those of its caller. Only blocks change them, so it is enough to
say of every construct that it is balanced if its parts are. -/
namespace TipJar
open Ledger

/-! ### Work -/

namespace Ledger

theorem Desk.context_note (desk : Desk) (level : Log.Level) (part message : String)
    (fields : List (String × Value)) (failure : Option Failure) :
    (desk.note level part message fields failure).context = desk.context := by
  obtain ⟨lines, h⟩ := desk.note_eq level part message fields failure
  rw [h]

namespace Work
variable {α β : Type} {work : Work α}

/-- Whether work leaves the identifiers in force as they were, however it ends. -/
def IsBalanced (work : Work α) : Prop := ∀ desk, (work desk).2.context = desk.context

theorem balanced_pure {a : α} : (pure a : Work α).IsBalanced := fun _ => rfl

theorem balanced_throw {why : Fault} : (throw why : Work α).IsBalanced := fun _ => rfl

theorem IsBalanced.bind {f : α → Work β} (hx : work.IsBalanced) (hf : ∀ a, (f a).IsBalanced) :
    (work >>= f).IsBalanced := by
  intro desk
  have hmid := hx desk
  cases hdone : work desk with
  | mk result mid =>
    rw [hdone] at hmid
    cases result with
    | ok a =>
      rw [bind_of_ok hdone]
      exact (hf a mid).trans hmid
    | error why =>
      rw [bind_of_error hdone]
      exact hmid

/-- A check in front of some work. -/
theorem balanced_guard {c : Prop} [Decidable c] {why : Fault} {f : PUnit → Work β}
    (hf : ∀ u, (f u).IsBalanced) : (if c then throw why >>= f else f ⟨⟩).IsBalanced := by
  split
  · exact balanced_throw.bind hf
  · exact hf ⟨⟩

theorem balanced_check {x : Checked α} : (check x).IsBalanced := by
  cases x with
  | ok a => exact balanced_pure
  | error why => exact balanced_throw

theorem balanced_tables : tables.IsBalanced := by
  refine IsBalanced.bind (fun _ => rfl) fun desk => balanced_guard fun _ => ?_
  split
  · exact balanced_pure
  · exact balanced_throw

theorem balanced_read {f : Store → α} : (read f).IsBalanced :=
  balanced_tables.bind fun _ => balanced_pure

theorem balanced_write {f : Store → Store} : (write f).IsBalanced :=
  balanced_tables.bind fun _ _ => rfl

theorem balanced_freshId : freshId.IsBalanced := fun _ => rfl

theorem balanced_now : now.IsBalanced := fun _ => rfl

theorem balanced_note {level : Log.Level} {part message : String}
    {fields : List (String × Value)} : (note level part message fields).IsBalanced :=
  fun desk => desk.context_note level part message fields none

theorem balanced_column {n : Int} : (column n).IsBalanced := by
  refine balanced_tables.bind fun _ => ?_
  split
  · exact balanced_throw
  · exact balanced_pure

theorem balanced_stored {m : Moment} : (stored m).IsBalanced := by
  unfold stored
  split
  · exact balanced_pure
  · exact balanced_throw

/-- A block of work binds with a token for each change, and takes the changes back. -/
theorem context_within (changes : List (Log.Field × String)) (work : Work α) (desk : Desk) :
    (within changes work desk).2.context =
      (work { desk with context := (desk.context.bindAll changes).1 }).2.context.undo
        (desk.context.bindAll changes).2 := by
  rw [Log.Context.bindAll_fst, Log.Context.undo_bindAll]
  rfl

theorem IsBalanced.within (h : work.IsBalanced) {changes : List (Log.Field × String)} :
    (within changes work).IsBalanced := by
  intro desk
  rw [context_within, h]
  exact desk.context.undo_bindAll_self changes

theorem IsBalanced.flushing (h : work.IsBalanced) : (flushing work).IsBalanced := by
  intro desk
  have hbody := h desk
  unfold Work.flushing
  split
  · next hdone => rw [hdone] at hbody; exact hbody
  · exact hbody

theorem balanced_mapM {f : α → Work β} {xs : List α} (h : ∀ x, (f x).IsBalanced) :
    (xs.mapM f).IsBalanced := by
  induction xs with
  | nil => exact balanced_pure
  | cons x xs ih =>
    rw [List.mapM_cons]
    exact (h x).bind fun _ => ih.bind fun _ => balanced_pure

theorem balanced_forIn {body : α → Work β} {xs : List α} (h : ∀ x, (body x).IsBalanced) :
    (forIn xs PUnit.unit fun a _ =>
      (body a >>= fun _ => pure (ForInStep.yield PUnit.unit))).IsBalanced := by
  induction xs with
  | nil => exact balanced_pure
  | cons x xs ih =>
    rw [List.forIn_cons]
    exact ((h x).bind fun _ => balanced_pure).bind fun step => by
      cases step <;> first | exact balanced_pure | exact ih

end Work

section Units
variable {who : Value} {names : List String} {except : Option Uuid} {amount : Amount}

theorem balanced_ensure : (ensure who).IsBalanced := by
  refine Work.balanced_check.bind fun name => Work.balanced_tables.bind fun store => ?_
  split
  · exact Work.balanced_pure
  · exact Work.balanced_write.bind fun _ => Work.balanced_pure

theorem balanced_lock : (lock names).IsBalanced :=
  (Work.balanced_forIn fun _ => balanced_ensure).bind fun _ => Work.balanced_read

theorem balanced_lockOne : (lockOne who).IsBalanced := by
  unfold lockOne
  split
  · exact Work.balanced_throw
  · exact Work.balanced_throw
  · exact balanced_ensure.bind fun _ => Work.balanced_pure

theorem balanced_summed {sums : List Amount} : (summed sums).IsBalanced := by
  unfold summed
  split
  · exact Work.balanced_pure
  · exact Work.balanced_throw

theorem balanced_heldBy : (heldBy who except).IsBalanced := by
  refine Work.balanced_check.bind fun key => ?_
  split
  · exact Work.balanced_read.bind fun _ => balanced_summed.bind fun _ => Work.balanced_pure
  · exact Work.balanced_read

theorem balanced_viewOf : (viewOf who except).IsBalanced :=
  balanced_ensure.bind fun _ => balanced_heldBy.bind fun _ => Work.balanced_pure

theorem balanced_checkAvailable : (checkAvailable who amount).IsBalanced := by
  exact balanced_lockOne.bind fun _ => balanced_viewOf.bind fun _ =>
    Work.balanced_guard fun _ => Work.balanced_pure

theorem balanced_requireAllowed : (requireAllowed who).IsBalanced := by
  refine (Work.balanced_check.bind fun _ => Work.balanced_read).bind fun blacklisted => ?_
  cases blacklisted with
  | true => exact Work.balanced_note.bind fun _ => Work.balanced_throw
  | false => exact Work.balanced_pure

theorem balanced_preferencesOf : (preferencesOf names).IsBalanced := by
  unfold preferencesOf
  split
  · exact Work.balanced_pure
  · exact Work.balanced_tables.bind fun _ => Work.balanced_check

theorem balanced_debitAndCredit {source : String} {credits : List (String × Amount)} :
    (debitAndCredit source credits except).IsBalanced := by
  have hchecks : (forIn credits PUnit.unit fun (credit : String × Amount) _ =>
      (Work.check ((checkName (.text credit.1)).mapError .refused) >>= fun _ =>
        pure (ForInStep.yield PUnit.unit))).IsBalanced :=
    Work.balanced_forIn fun _ => Work.balanced_check
  have hcredits (sums : List (String × Amount)) :
      (forIn sums PUnit.unit fun (sum : String × Amount) _ =>
        (Work.write (·.credit sum.1 sum.2) >>= fun _ =>
          pure (ForInStep.yield PUnit.unit))).IsBalanced :=
    Work.balanced_forIn fun _ => Work.balanced_write
  refine Work.balanced_guard fun _ => ?_
  refine hchecks.bind fun _ => balanced_lock.bind fun _ => Work.balanced_column.bind fun _ =>
    Work.balanced_tables.bind fun store => balanced_summed.bind fun _ => ?_
  split
  · exact Work.balanced_write.bind fun _ => (hcredits _).bind fun _ => Work.balanced_pure
  · exact balanced_viewOf.bind fun _ => Work.balanced_note.bind fun _ => Work.balanced_throw

theorem balanced_record {event : Uuid} {i : Transfer.Intent} {share : Amount} {time : Moment} :
    (record event i share time).IsBalanced := by
  exact Work.IsBalanced.flushing <|
    (Work.balanced_mapM fun _ => Work.balanced_freshId.bind fun _ => Work.balanced_pure).bind
      fun _ => Work.balanced_stored.bind fun _ => Work.balanced_tables.bind fun _ =>
      Work.balanced_guard fun _ => Work.balanced_write

/-- A transfer that is executed or fails leaves the identifiers of its caller. -/
theorem balanced_execute {i : Transfer.Intent} {minimum : Amount} :
    (execute i minimum except).IsBalanced :=
  Work.balanced_check.bind fun _ => Work.balanced_freshId.bind fun _ =>
    Work.balanced_now.bind fun _ => Work.IsBalanced.within <|
      balanced_debitAndCredit.bind fun _ => balanced_record.bind fun _ =>
      Work.balanced_note.bind fun _ => Work.balanced_pure

theorem balanced_transition {id : Uuid} {expected : Drop.Status} {change : Drop → Drop} :
    (transition id expected change).IsBalanced := by
  refine Work.balanced_tables.bind fun store => ?_
  split
  · exact Work.balanced_throw
  · split
    · exact Work.balanced_write.bind fun _ => Work.balanced_pure
    · exact Work.balanced_throw

theorem balanced_markSettled {id event : Uuid} {recipients : Nat} {moved : Amount} {time : Moment} :
    (markSettled id event recipients moved time).IsBalanced :=
  Work.balanced_stored.bind fun _ => Work.balanced_column.bind fun _ => balanced_transition

theorem balanced_markFailed {id : Uuid} {reason : String} {time : Moment}
    {participants : Option Int} : (markFailed id reason time participants).IsBalanced := by
  refine Work.balanced_stored.bind fun _ => ?_
  cases participants with
  | none => exact balanced_transition
  | some n => exact Work.balanced_column.bind fun _ => balanced_transition

theorem balanced_createDrop {r : DropRequest} : (createDrop r).IsBalanced := by
  refine Work.balanced_guard fun _ => Work.balanced_check.bind fun _ => ?_
  refine Work.balanced_guard fun _ => balanced_checkAvailable.bind fun _ => ?_
  refine Work.IsBalanced.bind (Work.IsBalanced.flushing ?_) fun _ =>
    Work.balanced_note.bind fun _ => Work.balanced_pure
  exact Work.balanced_freshId.bind fun _ => Work.balanced_stored.bind fun _ =>
    Work.balanced_stored.bind fun _ => Work.balanced_column.bind fun _ =>
    Work.balanced_tables.bind fun _ => Work.balanced_guard fun _ =>
    Work.balanced_write.bind fun _ => Work.balanced_pure

theorem balanced_findStalled {asOf : Moment} {seconds : Value} :
    (findStalled asOf seconds).IsBalanced :=
  Work.balanced_check.bind fun _ => Work.balanced_check.bind fun _ => Work.balanced_stored.bind
    fun _ => Work.balanced_read

theorem balanced_failStalled {asOf : Moment} {seconds : Value} :
    (failStalled asOf seconds).IsBalanced :=
  balanced_findStalled.bind fun _ => Work.balanced_mapM fun _ => balanced_markFailed.bind fun _ =>
    Work.balanced_note.bind fun _ => Work.balanced_pure

theorem balanced_findDue {asOf : Moment} {limit : Option Int} :
    (findDue asOf limit).IsBalanced := by
  refine Work.balanced_stored.bind fun _ => ?_
  cases limit with
  | none => exact Work.balanced_read
  | some n => exact Work.balanced_column.bind fun _ => Work.balanced_read

end Units

theorem Desk.context_commit {α : Type} {work : Work α} (h : work.IsBalanced) (desk : Desk) :
    (desk.commit work).2.context = desk.context := by
  have hwork := h { desk with spoiled := false }
  unfold Desk.commit
  split
  · next hdone =>
    rw [hdone] at hwork
    split <;> exact hwork
  · next hdone =>
    rw [hdone] at hwork
    exact hwork

theorem Desk.context_transact {α : Type} {work : Work α} (h : work.IsBalanced) (desk : Desk)
    (operation : String) : (desk.transact operation work).2.context = desk.context := by
  have hdone := desk.context_commit h
  unfold Desk.transact
  split
  · next hfailed =>
    rw [hfailed] at hdone
    exact (Desk.context_note ..).trans hdone
  · exact hdone

end Ledger

/-! ### Programs -/

/-- What an effect may be answered, and what it makes of the identifiers in force. A chore is done
at a desk where they are in force; what else there is at the desk is up to the others. -/
def Effect.Turns {β : Type} (e : Effect β) (c : Log.Context) (b : β) (d : Log.Context) : Prop :=
  match e with
  | .chore todo => ∃ desk after, desk.context = c ∧ todo.run desk = (b, after) ∧ after.context = d
  | .call .. | .mention _ | .wallet | .stopping => d = c

/-- Whether an effect leaves the identifiers in force as they are. -/
def Effect.IsStill {β : Type} (e : Effect β) : Prop := ∀ ⦃c b d⦄, e.Turns c b d → d = c

theorem Effect.still_transact {α : Type} {operation : String} {work : Work α}
    (h : work.IsBalanced) : (Effect.chore (.transact operation work)).IsStill := by
  intro c b d hturns
  obtain ⟨desk, after, rfl, hrun, rfl⟩ := hturns
  rw [← desk.context_transact h operation]
  exact congrArg (·.2.context) hrun.symm

theorem Effect.still_note {level : Log.Level} {part message : String}
    {fields : List (String × Value)} {failure : Option Failure} :
    (Effect.chore (.note level part message fields failure)).IsStill := by
  intro c b d hturns
  obtain ⟨desk, after, rfl, hrun, rfl⟩ := hturns
  rw [← desk.context_note level part message fields failure]
  exact congrArg (·.2.context) hrun.symm

theorem Effect.still_now : (Effect.chore .now).IsStill := by
  intro c b d hturns
  obtain ⟨desk, after, rfl, hrun, rfl⟩ := hturns
  cases hrun
  rfl

theorem Effect.still_freshId : (Effect.chore .freshId).IsStill := by
  intro c b d hturns
  obtain ⟨desk, after, rfl, hrun, rfl⟩ := hturns
  cases hrun
  rfl

namespace Program
variable {α β : Type} {p : Program α}

/-- How a program takes the identifiers in force from its beginning to its end. -/
def Turns : Program α → Log.Context → Checked α → Log.Context → Prop
  | done result, c, r, d => result = r ∧ c = d
  | perform e next, c, r, d => ∃ b mid, e.Turns c b mid ∧ (next b).Turns mid r d

/-- Whoever runs a program and does its effects as they are to be done, takes the identifiers along
such a way. -/
theorem turns_run {σ : Type} (context : σ → Log.Context)
    (act : {β : Type} → Effect β → StateM σ β)
    (faithful : ∀ {β : Type} (e : Effect β) (s : σ),
      e.Turns (context s) (act e s).1 (context (act e s).2))
    (p : Program α) (s : σ) :
    p.Turns (context s) (p.run act s).1 (context (p.run act s).2) := by
  induction p generalizing s with
  | done result => exact ⟨rfl, rfl⟩
  | perform e next ih => exact ⟨_, _, faithful e s, ih _ _⟩

theorem turns_bind {f : α → Program β} {c d : Log.Context} {r : Checked β}
    (h : (p >>= f).Turns c r d) :
    (∃ why, p.Turns c (.error why) d) ∨ ∃ a mid, p.Turns c (.ok a) mid ∧ (f a).Turns mid r d := by
  induction p generalizing c with
  | done result =>
    cases result with
    | ok a => exact .inr ⟨a, c, ⟨rfl, rfl⟩, h⟩
    | error why => exact .inl ⟨why, rfl, h.2⟩
  | perform e next ih =>
    obtain ⟨b, mid, he, hrest⟩ := h
    rcases ih b hrest with ⟨why, hfirst⟩ | ⟨a, left, hfirst, hnext⟩
    · exact .inl ⟨why, b, mid, he, hfirst⟩
    · exact .inr ⟨a, left, ⟨b, mid, he, hfirst⟩, hnext⟩

theorem turns_attempt {c d : Log.Context} {r : Checked (Checked α)} (h : p.attempt.Turns c r d) :
    ∃ result, p.Turns c result d ∧ r = .ok result := by
  induction p generalizing c with
  | done result => exact ⟨result, ⟨rfl, h.2⟩, h.1.symm⟩
  | perform e next ih =>
    obtain ⟨b, mid, he, hrest⟩ := h
    obtain ⟨result, hnext, hr⟩ := ih b hrest
    exact ⟨result, ⟨b, mid, he, hnext⟩, hr⟩

/-- A block of a program does as a block of work does, whatever its body is. -/
theorem turns_within {changes : List (Log.Field × String)} {c d : Log.Context} {r : Checked α}
    (h : (within changes p).Turns c r d) :
    ∃ left, p.Turns (c.bindAll changes).1 r left ∧ d = left.undo (c.bindAll changes).2 := by
  rw [c.bindAll_fst]
  simp only [c.undo_bindAll]
  obtain ⟨old, begun, ⟨desk, after, rfl, hbind, rfl⟩, h⟩ := h
  cases hbind
  rcases turns_bind (p := p.attempt) h with ⟨why, hfailed⟩ | ⟨result, left, hbody, hrest⟩
  · obtain ⟨_, _, hnever⟩ := turns_attempt hfailed
    cases hnever
  · obtain ⟨_, hbody, hresult⟩ := turns_attempt hbody
    cases hresult
    obtain ⟨_, _, ⟨desk', after', rfl, hrestore, rfl⟩, rfl, rfl⟩ := hrest
    cases hrestore
    exact ⟨_, hbody, rfl⟩

/-- Whether a program leaves the identifiers in force as they were, however it ends. -/
def IsBalanced (p : Program α) : Prop := ∀ ⦃c r d⦄, p.Turns c r d → d = c

theorem balanced_done (result : Checked α) : (done result).IsBalanced := fun _ _ _ h => h.2.symm

theorem IsBalanced.bind {f : α → Program β} (hp : p.IsBalanced) (hf : ∀ a, (f a).IsBalanced) :
    (p >>= f).IsBalanced := by
  intro c r d h
  rcases turns_bind h with ⟨why, hfailed⟩ | ⟨a, mid, hfirst, hnext⟩
  · exact hp hfailed
  · exact (hf a hnext).trans (hp hfirst)

theorem IsBalanced.attempt (hp : p.IsBalanced) : p.attempt.IsBalanced := by
  intro c r d h
  obtain ⟨result, hbody, -⟩ := turns_attempt h
  exact hp hbody

theorem IsBalanced.within {changes : List (Log.Field × String)} (hp : p.IsBalanced) :
    (within changes p).IsBalanced := by
  intro c r d h
  obtain ⟨left, hbody, rfl⟩ := turns_within h
  rw [hp hbody]
  exact c.undo_bindAll_self changes

theorem balanced_perform {γ : Type} {e : Effect γ} {next : γ → Program α} (still : e.IsStill)
    (hnext : ∀ b, (next b).IsBalanced) : (perform e next).IsBalanced := by
  intro c r d h
  obtain ⟨b, mid, he, hrest⟩ := h
  exact (hnext b hrest).trans (still he)

theorem balanced_transact {operation : String} {work : Work α} (h : work.IsBalanced) :
    (transact operation work).IsBalanced :=
  balanced_perform (Effect.still_transact h) balanced_done

theorem balanced_note {level : Log.Level} {part message : String}
    {fields : List (String × Value)} : (note level part message fields).IsBalanced :=
  balanced_perform Effect.still_note fun _ => balanced_done _

theorem balanced_noteFault {level : Log.Level} {part message : String}
    {fields : List (String × Value)} {why : Fault} :
    (noteFault level part message fields why).IsBalanced :=
  balanced_perform Effect.still_note fun _ => balanced_done _

theorem balanced_now : now.IsBalanced := balanced_perform Effect.still_now fun _ => balanced_done _

theorem balanced_freshId : freshId.IsBalanced :=
  balanced_perform Effect.still_freshId fun _ => balanced_done _

theorem balanced_tryCall {c : Call} {limit : Option Binary64} : (tryCall c limit).IsBalanced :=
  balanced_perform (fun _ _ _ h => h) fun _ => balanced_done _

theorem balanced_call {c : Call} {limit : Option Binary64} : (call c limit).IsBalanced :=
  balanced_perform (fun _ _ _ h => h) fun _ => balanced_done _

theorem balanced_mention {account : String} : (mention account).IsBalanced :=
  balanced_perform (fun _ _ _ h => h) fun _ => balanced_done _

theorem balanced_stopping : stopping.IsBalanced :=
  balanced_perform (fun _ _ _ h => h) fun _ => balanced_done _

end Program
end TipJar
