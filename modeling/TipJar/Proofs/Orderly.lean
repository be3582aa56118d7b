import TipJar.Program.Basic
import TipJar.Proofs.Deeds

/-! Orderly programs.

A program is a tree with an answer of the world at every node, so what it will do
depends on everybody else. One thing does not: whatever it is told, each of its
units of work only reads or is a deed, and a deed is begun only if what the program
has seen of the history allows it. `IsOrderly` says so of a program, and there is a
rule for it for each way in which programs are put together. -/
namespace TipJar
open Ledger

/-! ### Work that reads -/

namespace Ledger.Work
variable {α β : Type}

/-- Work that leaves the tables as they were. -/
def Reads (work : Work α) : Prop :=
  ∀ ⦃desk : Desk⦄ ⦃s : Store⦄ ⦃a : α⦄ ⦃after : Desk⦄,
    desk.Holds s → work.Gives desk a after → after.Holds s

theorem reads_pure {a : α} : (pure a : Work α).Reads := by
  intro desk s b after hs h
  obtain ⟨-, rfl⟩ := gives_pure.mp h
  exact hs

theorem reads_throw {why : Fault} : (throw why : Work α).Reads :=
  fun _ _ _ _ _ h => absurd h gives_throw

theorem Reads.bind {x : Work α} {f : α → Work β} (hx : x.Reads) (hf : ∀ a, (f a).Reads) :
    (x >>= f).Reads := by
  intro desk s b after hs h
  obtain ⟨a, mid, ha, hb⟩ := gives_bind.mp h
  exact hf a (hx hs ha) hb

theorem reads_check {x : Checked α} : (check x).Reads := by
  intro desk s a after hs h
  obtain ⟨-, rfl⟩ := gives_check.mp h
  exact hs

theorem reads_tables : tables.Reads := by
  intro desk s t after hs h
  obtain ⟨-, rfl⟩ := gives_tables.mp h
  exact hs

theorem reads_read {f : Store → α} : (read f).Reads := reads_tables.bind fun _ => reads_pure

theorem reads_column {n : Int} : (column n).Reads := by
  intro desk s u after hs h
  obtain ⟨-, -, rfl⟩ := gives_column.mp h
  exact hs

theorem reads_stored {m : Moment} : (stored m).Reads := by
  intro desk s utc after hs h
  obtain ⟨-, rfl⟩ := gives_stored.mp h
  exact hs

theorem reads_note {level : Log.Level} {part message : String} {fields : List (String × Value)} :
    (note level part message fields).Reads := by
  intro desk s u after hs h
  obtain rfl := gives_note.mp h
  exact hs.note ..

end Ledger.Work

theorem Ledger.reads_summed (sums : List Amount) : (summed sums).Reads := by
  unfold summed
  split
  · exact Work.reads_pure
  · exact Work.reads_throw

/-! ### Units of work that runs know -/

/-- Whether a run can contain a unit of work: it only reads, or it is a deed that may be begun. The
marks are what it adds to the history, given its result. -/
def Ledger.Work.IsKnown {α : Type} (work : Work α) (history : List Mark)
    (marks : α → List Mark) : Prop :=
  (work.Reads ∧ ∀ a, marks a = []) ∨
    ∃ deed : Deed, deed.Allowed history ∧ deed.work = work >>= fun a => pure (marks a)

theorem Ledger.Work.Reads.isKnown {α : Type} {work : Work α} (h : work.Reads)
    (history : List Mark) : work.IsKnown history fun _ => [] := .inl ⟨h, fun _ => rfl⟩

/-- What may be begun may be begun later. -/
theorem Deed.Allowed.later {deed : Deed} {history more : List Mark} (h : deed.Allowed history)
    (hmore : history ⊆ more) : deed.Allowed more := by
  cases deed with
  | payOut => exact ⟨h.1, hmore h.2⟩
  | tip => exact h
  | _ => trivial

theorem Ledger.Work.IsKnown.later {α : Type} {work : Work α} {history more : List Mark}
    {marks : α → List Mark} (h : work.IsKnown history marks) (hmore : history ⊆ more) :
    work.IsKnown more marks := by
  rcases h with hreads | ⟨deed, allowed, hwork⟩
  · exact .inl hreads
  · exact .inr ⟨deed, allowed.later hmore, hwork⟩

/-! ### What a program keeps to -/

/-- Whether an effect is one that a program may have which has seen some of the history, and a
property holds of whatever comes of it. -/
def Effect.Keeps {β : Type} (e : Effect β) (seen : List Mark) (K : β → List Mark → Prop) : Prop :=
  match e, K with
  | .chore (.transact _ work), K =>
    ∃ marks, work.IsKnown seen marks ∧ (∀ a, K (.ok a) (seen ++ marks a)) ∧
      ∀ why, K (.error why) seen
  | _, K => ∀ b, K b seen

namespace Program
variable {α β : Type}

/-- Whether a program that has seen some of the history keeps to what it may do, whatever it is
told, and a property holds when it ends. -/
def Keeps : Program α → List Mark → (Checked α → List Mark → Prop) → Prop
  | done result, seen, Q => Q result seen
  | perform e next, seen, Q => e.Keeps seen fun b seen => (next b).Keeps seen Q

end Program

/-- Whether an effect is a unit of work. -/
def Effect.isWork {β : Type} : Effect β → Bool
  | .chore c => c.isWork
  | _ => false

theorem Effect.keeps_of_other {β : Type} {e : Effect β} {seen : List Mark}
    {K : β → List Mark → Prop} (other : e.isWork = false) : e.Keeps seen K ↔ ∀ b, K b seen := by
  cases e with
  | chore c =>
    cases c with
    | transact => cases other
    | note | now | freshId | bind | restore => exact Iff.rfl
  | call | mention | wallet | stopping => exact Iff.rfl

theorem Effect.Keeps.imp {β : Type} {e : Effect β} {seen : List Mark}
    {K L : β → List Mark → Prop} (h : e.Keeps seen K) (himp : ∀ b seen, K b seen → L b seen) :
    e.Keeps seen L := by
  cases e with
  | chore c =>
    cases c with
    | transact operation work =>
      obtain ⟨marks, known, hok, herror⟩ := h
      exact ⟨marks, known, fun a => himp _ _ (hok a), fun why => himp _ _ (herror why)⟩
    | note | now | freshId | bind | restore => exact fun b => himp _ _ (h b)
  | call | mention | wallet | stopping => exact fun b => himp _ _ (h b)

namespace Program
variable {α β : Type} {p : Program α} {f : α → Program β} {seen : List Mark}

theorem Keeps.imp {P Q : Checked α → List Mark → Prop} (h : p.Keeps seen P)
    (himp : ∀ result seen, P result seen → Q result seen) : p.Keeps seen Q := by
  induction p generalizing seen with
  | done result => exact himp _ _ h
  | perform e next ih => exact Effect.Keeps.imp h fun b seen hb => ih b hb

/-- Two programs in a row: the second begins with what the first has seen. -/
theorem Keeps.bind {P : Checked α → List Mark → Prop} {Q : Checked β → List Mark → Prop}
    (h : p.Keeps seen P) (hok : ∀ a seen, P (.ok a) seen → (f a).Keeps seen Q)
    (herror : ∀ why seen, P (.error why) seen → Q (.error why) seen) :
    (p >>= f).Keeps seen Q := by
  show (p.bind f).Keeps seen Q
  induction p generalizing seen with
  | done result =>
    cases result with
    | ok a => exact hok a seen h
    | error why => exact herror why seen h
  | perform e next ih => exact Effect.Keeps.imp h fun b seen hb => ih b hb

theorem Keeps.attempt {Q : Checked (Checked α) → List Mark → Prop}
    (h : p.Keeps seen fun result seen => Q (.ok result) seen) : p.attempt.Keeps seen Q := by
  induction p generalizing seen with
  | done result => exact h
  | perform e next ih => exact Effect.Keeps.imp h fun b seen hb => ih b hb

/-- Whether a program keeps to what it may do once it has seen what is given. -/
def IsOrderly (p : Program α) (given : List Mark) : Prop :=
  ∀ seen, given ⊆ seen → p.Keeps seen fun _ more => given ⊆ more

variable {given : List Mark}

theorem orderly_done (result : Checked α) : (done result).IsOrderly given := fun _ hseen => hseen

theorem IsOrderly.bind (hp : p.IsOrderly given) (hf : ∀ a, (f a).IsOrderly given) :
    (p >>= f).IsOrderly given :=
  fun seen hseen => (hp seen hseen).bind (fun a => hf a) fun _ _ hmore => hmore

theorem IsOrderly.attempt (hp : p.IsOrderly given) : p.attempt.IsOrderly given :=
  fun seen hseen => (hp seen hseen).attempt

theorem IsOrderly.keeps_of_cons {mark : Mark} (hp : p.IsOrderly (mark :: given))
    (hseen : mark :: given ⊆ seen) : p.Keeps seen fun _ more => given ⊆ more :=
  (hp seen hseen).imp fun _ _ hmore => (List.cons_subset.mp hmore).2

/-- What is no unit of work may be answered in any way. -/
theorem orderly_perform {γ : Type} {e : Effect γ} {next : γ → Program α} (other : e.isWork = false)
    (hnext : ∀ b, (next b).IsOrderly given) : (perform e next).IsOrderly given :=
  fun seen hseen => (Effect.keeps_of_other other).mpr fun b => hnext b seen hseen

theorem orderly_transact {operation : String} {work : Work α}
    (known : ∀ seen, given ⊆ seen → ∃ marks, work.IsKnown seen marks) :
    (transact operation work).IsOrderly given := by
  intro seen hseen
  obtain ⟨marks, hknown⟩ := known seen hseen
  exact ⟨marks, hknown, fun a => List.subset_append_of_subset_left _ hseen, fun _ => hseen⟩

theorem orderly_asks {operation : String} {work : Work α} (h : work.Reads) :
    (transact operation work).IsOrderly given :=
  orderly_transact fun seen _ => ⟨_, h.isKnown seen⟩

/-- A unit of work that is a deed, with nothing to tell the history. -/
theorem orderly_does {operation : String} {work : Work α} (deed : Deed)
    (allowed : deed.Allowed given) (hwork : deed.work = work >>= fun _ => pure []) :
    (transact operation work).IsOrderly given :=
  orderly_transact fun _ hseen => ⟨_, .inr ⟨deed, allowed.later hseen, hwork⟩⟩

theorem orderly_note {level : Log.Level} {part message : String}
    {fields : List (String × Value)} : (note level part message fields).IsOrderly given :=
  orderly_perform rfl fun _ => orderly_done _

theorem orderly_noteFault {level : Log.Level} {part message : String}
    {fields : List (String × Value)} {why : Fault} :
    (noteFault level part message fields why).IsOrderly given :=
  orderly_perform rfl fun _ => orderly_done _

theorem orderly_now : now.IsOrderly given := orderly_perform rfl fun _ => orderly_done _

theorem orderly_freshId : freshId.IsOrderly given := orderly_perform rfl fun _ => orderly_done _

theorem orderly_tryCall {c : Call} {limit : Option Binary64} : (tryCall c limit).IsOrderly given :=
  orderly_perform rfl fun _ => orderly_done _

theorem orderly_call {c : Call} {limit : Option Binary64} : (call c limit).IsOrderly given :=
  orderly_perform rfl fun _ => orderly_done _

theorem orderly_mention {account : String} : (mention account).IsOrderly given :=
  orderly_perform rfl fun _ => orderly_done _

theorem orderly_wallet : wallet.IsOrderly given := orderly_perform rfl orderly_done

theorem orderly_stopping : stopping.IsOrderly given := orderly_perform rfl fun _ => orderly_done _

theorem IsOrderly.within {changes : List (Log.Field × String)} (hp : p.IsOrderly given) :
    (within changes p).IsOrderly given :=
  orderly_perform rfl fun _ =>
    hp.attempt.bind fun result => orderly_perform rfl fun _ => orderly_done result

end Program
end TipJar
