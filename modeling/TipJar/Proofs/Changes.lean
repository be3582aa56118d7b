import TipJar.Proofs.Deeds

/-! What a unit of work can do to the tables.

There are many units of work but few changes: an account is opened or set, value
arrives or moves, a drop begins, is claimed, is paid out or is closed. `Change`
lists them with everything that is known when they happen, and every unit of work
that succeeds is a chain of them. An invariant of all runs is thus one of single
changes, and no invariant looks into a unit of work. -/
namespace TipJar
open Ledger

/-- How the life of a drop ends without a payout. -/
inductive Drop.Ending
  | expired (time : Moment)
  | failed (reason : String) (participants : Option Int) (time : Moment)

/-- The drop once its life has ended without a payout. -/
def Drop.closed (d : Drop) : Ending → Drop
  | .expired time => d.asExpired time
  | .failed reason participants time => d.asFailed reason participants time

/-- Whether the preference that is stored for an account can be read. -/
def Ledger.Account.IsLegible (a : Account) : Prop := ∃ chosen, a.read = .ok chosen

/-- The units that move value from one account to others. -/
def Deed.IsTransfer : Deed → Prop
  | tip .. | payOut .. => True
  | _ => False

/-- A settling drop is closed, and nothing else is touched. -/
inductive Ledger.Store.Closes : Store → Store → Prop
  | closed {s : Store} {id : Uuid} {row : Drop} (found : s.drop? id = some row)
      (settling : row.has .settling = true) (ending : Drop.Ending) :
      Closes s (s.updateDrop id (·.closed ending))

namespace State

/-- One change of the tables, and what it adds to the history. -/
inductive Change : State → State → Prop
  | opened {s : Store} {history : List Mark} {name : String} (named : IsName name) :
      Change ⟨s, history⟩ ⟨s.withAccount name, history⟩
  | set {s : Store} {history : List Mark} {name : String} {f : Account → Account}
      (same : ∀ a, (f a).name = a.name ∧ (f a).balance = a.balance)
      (legible : ∀ a, a.IsLegible → (f a).IsLegible) :
      Change ⟨s, history⟩ ⟨s.updateAccount name f, history⟩
  | deposited {s : Store} {history : List Mark} {name : String} {amount : Amount}
      (there : (s.account? name).isSome) :
      Change ⟨s, history⟩ ⟨s.credit name amount, history ++ [.deposited name amount]⟩
  | tipped {s : Store} {history : List Mark} {desk : Desk} {i : Transfer.Intent} {minimum : Amount}
      {utc : Moment} (tip : i.kind ≠ .drop) (pays : desk.CanPay s i minimum none utc) :
      Change ⟨s, history⟩ ⟨s.transferred i (desk.rowsFor i utc), history⟩
  | created {s : Store} {history : List Mark} {desk : Desk} {r : DropRequest} {initiator : String}
      {openedAt deadline : Moment} (there : (s.account? initiator).isSome)
      (creates : desk.CanCreate s r initiator openedAt deadline) :
      Change ⟨s, history⟩
        ⟨s.withDrop (r.row (desk.ids desk.nextId) initiator openedAt deadline), history⟩
  | claimed {s : Store} {history : List Mark} {id : Uuid} {row : Drop} {time : Moment}
      (found : s.drop? id = some row) (pending : row.has .pending = true) :
      Change ⟨s, history⟩
        ⟨s.updateDrop id (·.asClaimed time), history ++ [.claimed (row.asClaimed time)]⟩
  | paidOut {s : Store} {history : List Mark} {desk : Desk} {d row : Drop}
      {participants : List String} {minimum : Amount} {utc : Moment} (given : .claimed d ∈ history)
      (pays : desk.CanPay s (d.payment participants) minimum (some d.id) utc)
      (found : s.drop? d.id = some row) (settling : row.has .settling = true) :
      Change ⟨s, history⟩
        ⟨s.paidOut d participants (desk.rowsFor (d.payment participants) utc)
            (desk.ids desk.nextId) utc,
          history ++ [.paidOut d.id (.ofSplit (desk.ids desk.nextId) (d.payment participants)
            (d.payment participants).split desk.now)]⟩
  | closed {s : Store} {history : List Mark} {id : Uuid} {row : Drop} {ending : Drop.Ending}
      (found : s.drop? id = some row) (settling : row.has .settling = true) :
      Change ⟨s, history⟩ ⟨s.updateDrop id (·.closed ending), history⟩

/-- A chain of changes. -/
abbrev Changes : State → State → Prop := Relation.ReflTransGen Change

/-- A change that leaves the journal alone. -/
def Quiet (σ τ : State) : Prop := Change σ τ ∧ τ.store.entries = σ.store.entries

/-! ### Units of work are chains of changes -/

section Deeds
variable {s : Store} {history : List Mark} {desk after : Desk}

theorem quiet_opened {name : String} (h : IsName name) :
    Relation.ReflTransGen Quiet ⟨s, history⟩ ⟨s.withAccount name, history⟩ :=
  .single ⟨.opened h, s.entries_withAccount name⟩

/-- What ends lives without a payout does nothing else. -/
theorem closes_of_gives (deed : Deed) (closing : deed.IsClosing) {marks : List Mark}
    (hs : desk.Holds s) (h : deed.work.Gives desk marks after) :
    marks = [] ∧ ∃ t, after.Holds t ∧ Relation.ReflTransGen Store.Closes s t := by
  cases deed with
  | expire drop =>
    simp only [Deed.work, Work.gives_bind, Work.gives_now, markExpired_gives, Work.gives_pure] at h
    obtain ⟨_, _, ⟨rfl, rfl⟩, _, _, ⟨utc, t, row, -, ht, hrow, hhas, -, rfl⟩, rfl, rfl⟩ := h
    obtain rfl := hs.unique ht
    exact ⟨rfl, _, hs.keep _, .single (.closed hrow hhas (.expired utc))⟩
  | fail drop reason participants =>
    simp only [Deed.work, Work.gives_bind, Work.gives_now, markFailed_gives, Work.gives_pure] at h
    obtain ⟨_, _, ⟨rfl, rfl⟩, _, _, ⟨utc, t, row, -, -, ht, hrow, hhas, -, rfl⟩, rfl, rfl⟩ := h
    obtain rfl := hs.unique ht
    exact ⟨rfl, _, hs.keep _,
      .single (.closed hrow hhas (.failed (keptReason reason) participants utc))⟩
  | failStalled asOf seconds =>
    simp only [Deed.work, Work.gives_bind, Work.gives_pure] at h
    obtain ⟨_, _, h, rfl, rfl⟩ := h
    obtain ⟨t, ht, hinterrupts⟩ := failStalled_steps hs h
    refine ⟨rfl, t, ht, hinterrupts.lift id fun _ _ interrupts => ?_⟩
    cases interrupts with
    | interrupted found settling utc => exact .closed found settling (.failed _ none utc)
  | _ => exact closing.elim

theorem quiet_of_closes {t : Store} (h : Relation.ReflTransGen Store.Closes s t) :
    Relation.ReflTransGen Quiet ⟨s, history⟩ ⟨t, history⟩ := by
  induction h with
  | refl => exact .refl
  | tail _ closes ih =>
    cases closes with
    | closed found settling => exact ih.tail ⟨.closed found settling, rfl⟩

/-- Every unit of work that succeeds and moves nothing between accounts is a chain of changes that
leave the journal alone. -/
theorem quiet_of_gives {deed : Deed} {marks : List Mark} (moves : ¬deed.IsTransfer)
    (hs : desk.Holds s) (h : deed.work.Gives desk marks after) :
    ∃ t, after.Holds t ∧ Relation.ReflTransGen Quiet ⟨s, history⟩ ⟨t, history ++ marks⟩ := by
  cases deed with
  | tip => exact absurd trivial moves
  | payOut => exact absurd trivial moves
  | view who except =>
    simp only [Deed.work, Work.gives_bind, viewOf_gives, Work.gives_pure] at h
    obtain ⟨_, _, ⟨t, name, ht, hname, -, -, rfl⟩, rfl, rfl⟩ := h
    obtain rfl := hs.unique ht
    rw [List.append_nil]
    exact ⟨_, hs.keep _, quiet_opened (checkName_ok hname).2⟩
  | info who =>
    simp only [Deed.work, accountInfo, Work.gives_bind, ensure_gives, Work.gives_check,
      Work.gives_pure] at h
    obtain ⟨_, _, ⟨_, _, ⟨t, name, ht, hname, -, rfl⟩, -, rfl⟩, rfl, rfl⟩ := h
    obtain rfl := hs.unique ht
    rw [List.append_nil]
    exact ⟨_, hs.keep _, quiet_opened (checkName_ok hname).2⟩
  | checkFunds who amount =>
    simp only [Deed.work, Work.gives_bind, checkAvailable_gives, Work.gives_pure] at h
    obtain ⟨_, _, ⟨t, name, ht, hname, -, -, -, rfl⟩, rfl, rfl⟩ := h
    obtain rfl := hs.unique ht
    rw [List.append_nil]
    exact ⟨_, hs.keep _, quiet_opened (checkName_ok hname).2⟩
  | prefer who preference =>
    simp only [Deed.work, Work.gives_bind, Work.gives_pure] at h
    obtain ⟨_, _, h, rfl, rfl⟩ := h
    obtain ⟨t, name, chosen, ht, hname, hafter⟩ := setPreference_changes h
    obtain rfl := hs.unique ht
    rw [List.append_nil]
    have hlegible (a : Account) :
        Account.IsLegible { a with preference := chosen.map .known } := by
      cases chosen <;> exact ⟨_, rfl⟩
    exact ⟨_, hafter, (quiet_opened (checkName_ok hname).2).tail
      ⟨.set (fun _ => ⟨rfl, rfl⟩) fun a _ => hlegible a, rfl⟩⟩
  | blacklist who blacklisted =>
    simp only [Deed.work, Work.gives_bind, Work.gives_pure] at h
    obtain ⟨_, _, h, rfl, rfl⟩ := h
    obtain ⟨t, name, ht, hname, hafter⟩ := setBlacklisted_changes h
    obtain rfl := hs.unique ht
    rw [List.append_nil]
    exact ⟨_, hafter, (quiet_opened (checkName_ok hname).2).tail
      ⟨.set (fun _ => ⟨rfl, rfl⟩) fun _ legible => legible, rfl⟩⟩
  | deposit who amount =>
    simp only [Deed.work, Work.gives_bind, deposit_gives, Work.gives_pure] at h
    obtain ⟨_, _, ⟨t, name, ht, hname, -, -, -, rfl⟩, rfl, rfl⟩ := h
    obtain rfl := hs.unique ht
    rw [(checkName_ok hname).1, Option.getD_some]
    exact ⟨_, (hs.keep _).note .., (quiet_opened (checkName_ok hname).2).tail
      ⟨.deposited (isSome_withAccount _ name), rfl⟩⟩
  | create r =>
    simp only [Deed.work, Work.gives_bind, createDrop_gives, Work.gives_pure] at h
    obtain ⟨_, _, ⟨t, initiator, openedAt, deadline, ht, hcreates, -, rfl⟩, rfl, rfl⟩ := h
    obtain rfl := hs.unique ht
    rw [List.append_nil]
    exact ⟨_, hs.afterCreate _ _ _, (quiet_opened (checkName_ok hcreates.named).2).tail
      ⟨.created (isSome_withAccount _ initiator) hcreates.withAccount, rfl⟩⟩
  | claim drop =>
    simp only [Deed.work, Work.gives_bind, Work.gives_now, claim_gives, Work.gives_pure] at h
    obtain ⟨_, _, ⟨rfl, rfl⟩, _, _, ⟨utc, t, row, -, ht, hrow, hhas, rfl, rfl⟩, rfl, rfl⟩ := h
    obtain rfl := hs.unique ht
    exact ⟨_, hs.keep _, .single ⟨.claimed hrow hhas, rfl⟩⟩
  | expire drop =>
    obtain ⟨rfl, t, ht, hcloses⟩ := closes_of_gives (.expire drop) trivial hs h
    rw [List.append_nil]
    exact ⟨t, ht, quiet_of_closes hcloses⟩
  | fail drop reason participants =>
    obtain ⟨rfl, t, ht, hcloses⟩ := closes_of_gives (.fail drop reason participants) trivial hs h
    rw [List.append_nil]
    exact ⟨t, ht, quiet_of_closes hcloses⟩
  | failStalled asOf seconds =>
    obtain ⟨rfl, t, ht, hcloses⟩ := closes_of_gives (.failStalled asOf seconds) trivial hs h
    rw [List.append_nil]
    exact ⟨t, ht, quiet_of_closes hcloses⟩

/-- Every unit of work that succeeds is one transfer or a chain of changes that are none. -/
theorem changes_of_gives {σ : State} {deed : Deed} {marks : List Mark}
    (allowed : deed.Allowed σ.history) (hs : desk.Holds σ.store)
    (h : deed.work.Gives desk marks after) :
    ∃ t, after.Holds t ∧ (Change σ ⟨t, σ.history ++ marks⟩ ∨
      Relation.ReflTransGen Quiet σ ⟨t, σ.history ++ marks⟩) := by
  obtain ⟨s, history⟩ := σ
  cases deed with
  | tip i minimum =>
    simp only [Deed.work, Work.gives_bind, execute_gives, Work.gives_pure] at h
    obtain ⟨_, _, ⟨t, utc, ht, hpays, -, rfl⟩, rfl, rfl⟩ := h
    obtain rfl := hs.unique ht
    rw [List.append_nil]
    exact ⟨_, hs.afterTransfer _ _, .inl (.tipped allowed hpays)⟩
  | payOut sweeper claimed participants =>
    obtain ⟨hexecute, hclaimed⟩ := allowed
    simp only [Deed.work, Work.gives_bind, payOut_gives hexecute, Work.gives_pure] at h
    obtain ⟨_, _, ⟨t, utc, row, ht, hpays, hrow, hhas, rfl, rfl⟩, rfl, rfl⟩ := h
    obtain rfl := hs.unique ht
    exact ⟨_, (hs.afterTransfer _ _).keep _, .inl (.paidOut hclaimed hpays hrow hhas)⟩
  | _ =>
    obtain ⟨t, ht, hquiet⟩ := quiet_of_gives id hs h
    exact ⟨t, ht, .inr hquiet⟩

end Deeds

/-- Runs are chains of changes. -/
theorem Run.changes {σ τ : State} (h : Run σ τ) : Changes σ τ := by
  induction h with
  | refl => exact .refl
  | @tail σ _ _ step ih =>
    obtain ⟨deed, operation, desk, allowed⟩ := step
    rcases σ.perform_cases deed operation desk with hsame | ⟨marks, after, hgives, hleft⟩
    · rw [hsame]
      exact ih
    · obtain ⟨t, ht, hchanges⟩ := changes_of_gives allowed (σ.holds_begun desk) hgives
      rw [ht.tables, Option.getD_some] at hleft
      rw [hleft]
      rcases hchanges with change | hquiet
      · exact ih.tail change
      · exact ih.trans (hquiet.lift id fun _ _ quiet => quiet.1)

/-- The states that chains of changes lead to. An invariant holds in all of them if it holds at the
start and every change out of such a state keeps it. -/
def Reached (σ : State) : Prop := Changes start σ

theorem Reachable.reached {σ : State} (h : σ.Reachable) : σ.Reached := Run.changes h

theorem Reached.next {σ τ : State} (h : σ.Reached) (change : Change σ τ) : τ.Reached :=
  h.tail change

theorem Reached.run {σ τ : State} (h : σ.Reached) (more : Run σ τ) : τ.Reached :=
  Relation.ReflTransGen.trans h more.changes

end State
end TipJar
