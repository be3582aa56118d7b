import TipJar.Proofs.Changes
import TipJar.Proofs.Failures

/-! One program among others.

A crowd is everybody at once. What a single program does, and what it reports in the
end, is a matter of one play: from its first effect to its last, with any run of the
others before each of its effects. A unit of work in it is kept or undone; undone it
may be for any reason that the work itself has, and because the store has lost it,
which can happen to every unit at any time. Everything that is no unit of work is
answered by the world, of which only as much is assumed as is said. Whatever the
play, it is part of a run, so all that holds in runs holds between its effects. -/
namespace TipJar
open Ledger

/-- What effects may be answered. -/
def World : Type 1 := (β : Type) → Effect β → β → Prop

/-- A unit of work of one program that was kept: the states right before and right after it. -/
structure Kept where
  operation : String
  before : State
  after : State

namespace State
variable {α : Type} {σ τ : State} {operation : String} {work : Work α} {a : α} {why : Fault}

/-- Nothing is ever taken out of the history. -/
theorem Run.history_subset (h : Run σ τ) : σ.history ⊆ τ.history := by
  induction h with
  | refl => exact List.Subset.refl _
  | @tail σ' _ _ step ih =>
    obtain ⟨deed, operation, desk, -⟩ := step
    rcases σ'.perform_cases deed operation desk with hsame | ⟨marks, after, -, hleft⟩
    · rw [hsame]
      exact ih
    · rw [hleft]
      exact List.subset_append_of_subset_left _ ih

/-- A unit of work that runs know, and that is kept, is a step of a run or none. -/
theorem step_of_gives {α : Type} {work : Work α} {marks : α → List Mark} {desk after : Desk} {a : α}
    (known : work.IsKnown σ.history marks) (h : work.Gives (σ.begun desk) a after) :
    ∃ τ, Relation.ReflGen Step σ τ ∧ after.Holds τ.store ∧ τ.history = σ.history ++ marks a := by
  rcases known with ⟨hreads, hnone⟩ | ⟨deed, allowed, hwork⟩
  · refine ⟨σ, .refl, hreads (σ.holds_begun desk) h, ?_⟩
    rw [hnone, List.append_nil]
  · have hdeed : deed.work.Gives (σ.begun desk) (marks a) after := by
      rw [hwork]
      exact Work.gives_bind.mpr ⟨a, after, h, Work.gives_pure.mpr ⟨rfl, rfl⟩⟩
    obtain ⟨t, ht, -⟩ := changes_of_gives allowed (σ.holds_begun desk) hdeed
    have hleft := perform_of_gives hdeed ht ""
    refine ⟨_, .single (.perform σ deed "" desk allowed), ?_, ?_⟩
    · rw [hleft]
      exact ht
    · rw [hleft]

/-- A unit of work is kept: it is one that runs know, and it succeeds at some desk. -/
def Keeps (σ : State) (work : Work α) (a : α) (τ : State) : Prop :=
  ∃ (marks : α → List Mark) (desk after : Desk), work.IsKnown σ.history marks ∧
    work.Gives (σ.begun desk) a after ∧ after.Holds τ.store ∧ τ.history = σ.history ++ marks a

/-- A unit of work is undone: it fails at some desk, or the store loses it. -/
def Undoes (σ : State) (operation : String) (work : Work α) (why : Fault) : Prop :=
  (∃ desk after : Desk, (σ.begun desk).transact operation work = (.error why, after)) ∨
    ∃ cause, why = .refused (.unsaved operation cause)

/-- A unit of work that is kept is a step of a run, or none. -/
theorem Keeps.step (h : σ.Keeps work a τ) : Relation.ReflGen Step σ τ := by
  obtain ⟨marks, desk, after, known, hgives, hτ, hhistory⟩ := h
  obtain ⟨υ, hstep, hυ, hsame⟩ := step_of_gives known hgives
  have hstore : υ.store = τ.store := hυ.unique hτ
  have hstate : υ = τ := by
    cases υ
    cases τ
    simp_all
  exact hstate ▸ hstep

theorem Keeps.run (h : σ.Keeps work a τ) : Run σ τ := h.step.to_reflTransGen

/-- Work that only reads, and succeeds, is kept. -/
theorem keeps_of_reads {desk after : Desk} (reads : work.Reads)
    (h : work.Gives (σ.begun desk) a after) : σ.Keeps work a σ :=
  ⟨fun _ => [], desk, after, reads.isKnown σ.history, h, reads (σ.holds_begun desk) h,
    (List.append_nil _).symm⟩

/-- A deed that succeeds is kept. -/
theorem keeps_of_perform (deed : Deed) {marks : α → List Mark} {desk after : Desk} {s : Store}
    (allowed : deed.Allowed σ.history) (hwork : deed.work = work >>= fun a => pure (marks a))
    (h : work.Gives (σ.begun desk) a after) (hs : after.Holds s) (operation : String) :
    σ.Keeps work a (σ.perform deed operation desk) := by
  have hdeed : deed.work.Gives (σ.begun desk) (marks a) after := by
    rw [hwork]
    exact Work.gives_bind.mpr ⟨a, after, h, Work.gives_pure.mpr ⟨rfl, rfl⟩⟩
  rw [perform_of_gives hdeed hs]
  exact ⟨marks, desk, after, .inr ⟨deed, allowed, hwork⟩, h, hs, rfl⟩

section Claiming
variable {id : Uuid} {row : Drop} {desk : Desk} {utc : Moment} (timed : desk.now.IsStoredAs utc)
  (found : σ.store.drop? id = some row) (pending : row.has .pending = true)
include timed found pending

/-- A pending drop can be claimed. -/
theorem claim_begun_gives : (do Ledger.claim id (← Work.now)).Gives (σ.begun desk)
    (row.asClaimed utc) ((σ.begun desk).keep (σ.store.updateDrop id (·.asClaimed utc))) :=
  Work.gives_bind.mpr ⟨_, _, Work.gives_now.mpr ⟨rfl, rfl⟩, claim_gives.mpr
    ⟨utc, _, row, timed, σ.holds_begun desk, found, pending, rfl, rfl⟩⟩

theorem perform_claim (operation : String) : σ.perform (.claim id) operation desk =
    ⟨σ.store.updateDrop id (·.asClaimed utc), σ.history ++ [.claimed (row.asClaimed utc)]⟩ := by
  have hwork : (Deed.claim id).work.Gives (σ.begun desk) [.claimed (row.asClaimed utc)]
      ((σ.begun desk).keep (σ.store.updateDrop id (·.asClaimed utc))) := by
    obtain ⟨_, _, hnow, hclaim⟩ := Work.gives_bind.mp (claim_begun_gives timed found pending)
    exact Work.gives_bind.mpr ⟨_, _, hnow, Work.gives_bind.mpr
      ⟨_, _, hclaim, Work.gives_pure.mpr ⟨rfl, rfl⟩⟩⟩
  exact perform_of_gives hwork ((σ.holds_begun desk).keep _) operation

theorem keeps_claim (operation : String) :
    σ.Keeps (do Ledger.claim id (← Work.now)) (row.asClaimed utc)
      (σ.perform (.claim id) operation desk) := by
  have hwork : (Deed.claim id).work =
      (do Ledger.claim id (← Work.now)) >>= fun d => pure [.claimed d] := by
    simp [Deed.work]
  exact keeps_of_perform (.claim id) trivial hwork (claim_begun_gives timed found pending)
    ((σ.holds_begun desk).keep _) operation

end Claiming

/-- What a unit of work can be undone by. -/
theorem Undoes.faults {P : Fault → Prop} (h : σ.Undoes operation work why)
    (hfails : work.FailsOnly σ.store P) :
    (∃ cause, why = .refused (.unsaved operation cause)) ∨
      (P why ∧ ∀ cause, why ≠ .store cause) := by
  rcases h with ⟨desk, after, h⟩ | lost
  · exact transact_begun_error hfails h
  · exact .inl lost

/-- Work that is refused is undone for just that. -/
theorem undoes_of_error {desk after : Desk} {why : Refusal}
    (h : work (σ.begun desk) = (.error (.refused why), after)) :
    σ.Undoes operation work (.refused why) := by
  refine .inl ⟨desk, { after with tables := some σ.store, spoiled := false }, ?_⟩
  unfold Desk.transact Desk.commit
  rw [show { σ.begun desk with spoiled := false } = σ.begun desk from rfl, h]
  rfl

end State

/-! ### Effects -/

/-- What an effect may be answered at some tables, and the tables it leaves. A chore is done at any
desk that holds the tables; what comes from outside leaves them alone and is anything. -/
def Effect.Answers {β : Type} (e : Effect β) (s : Store) (b : β) (t : Store) : Prop :=
  match e, b with
  | .chore c, b => ∃ desk after : Desk,
      c.run { desk with tables := some s, spoiled := false } = (b, after) ∧ after.tables.getD s = t
  | _, _ => t = s

namespace Effect
variable {β : Type}

/-- What an effect may come to: an answer, and the state it leaves. Only a unit of work that is kept
leaves another one. -/
def ComesTo (e : Effect β) (σ : State) (b : β) (τ : State) : Prop :=
  match e, b with
  | .chore (.transact _ work), .ok a => σ.Keeps work a τ
  | .chore (.transact operation work), .error why => τ = σ ∧ σ.Undoes operation work why
  | _, _ => τ = σ

/-- The unit of work that was kept, if the effect was one. -/
def kept (e : Effect β) (σ : State) (b : β) (τ : State) : List Kept :=
  match e, b with
  | .chore (.transact operation _), .ok _ => [⟨operation, σ, τ⟩]
  | _, _ => []

theorem comesTo_of_other {e : Effect β} {σ τ : State} {b : β} (other : e.isWork = false) :
    e.ComesTo σ b τ ↔ τ = σ := by
  cases e with
  | chore c =>
    cases c with
    | transact => cases other
    | note | now | freshId | bind | restore => exact Iff.rfl
  | call | mention | wallet | stopping => exact Iff.rfl

theorem kept_of_other {e : Effect β} {σ τ : State} {b : β} (other : e.isWork = false) :
    e.kept σ b τ = [] := by
  cases e with
  | chore c =>
    cases c with
    | transact => cases other
    | note | now | freshId | bind | restore => rfl
  | call | mention | wallet | stopping => rfl

/-- Only a unit of work that is kept leaves another state. -/
theorem ComesTo.same_or_kept {e : Effect β} {σ τ : State} {b : β} (h : e.ComesTo σ b τ) :
    τ = σ ∨ Relation.ReflGen State.Step σ τ ∧ ∃ operation, e.kept σ b τ = [⟨operation, σ, τ⟩] := by
  cases hwork : e.isWork with
  | false => exact .inl ((comesTo_of_other hwork).mp h)
  | true =>
    cases e with
    | chore c =>
      cases c with
      | transact operation work =>
        cases b with
        | ok a => exact .inr ⟨State.Keeps.step h, operation, rfl⟩
        | error why => exact .inl h.1
      | note | now | freshId | bind | restore => cases hwork
    | call | mention | wallet | stopping => cases hwork

/-- What an effect comes to is a step of a run, or none. -/
theorem ComesTo.step {e : Effect β} {σ τ : State} {b : β} (h : e.ComesTo σ b τ) :
    Relation.ReflGen State.Step σ τ := by
  rcases h.same_or_kept with rfl | ⟨step, -⟩
  · exact .refl
  · exact step

theorem ComesTo.run {e : Effect β} {σ τ : State} {b : β} (h : e.ComesTo σ b τ) :
    State.Run σ τ := h.step.to_reflTransGen

/-- A unit of work that an effect keeps is a step of a run. -/
theorem ComesTo.steps {e : Effect β} {σ τ : State} {b : β} (h : e.ComesTo σ b τ) :
    ∀ k ∈ e.kept σ b τ, State.Run k.before k.after := by
  intro k hk
  cases e with
  | chore c =>
    cases c with
    | transact operation work =>
      cases b with
      | ok a =>
        rw [List.mem_singleton.mp hk]
        exact State.Keeps.run h
      | error why => exact absurd hk List.not_mem_nil
    | note | now | freshId | bind | restore => exact absurd hk List.not_mem_nil
  | call | mention | wallet | stopping => exact absurd hk List.not_mem_nil

/-- Whatever an effect of an orderly program is answered, that is what it may come to: plays leave
nothing out. -/
theorem comesTo_of_answers {e : Effect β} {seen : List Mark} {K : β → List Mark → Prop} {σ : State}
    {b : β} {t : Store} (h : e.Keeps seen K) (hseen : seen ⊆ σ.history)
    (answers : e.Answers σ.store b t) :
    ∃ τ, τ.store = t ∧ e.ComesTo σ b τ ∧ ∃ more, more ⊆ τ.history ∧ K b more := by
  cases e with
  | chore c =>
    obtain ⟨desk, after, hrun, rfl⟩ := answers
    cases c with
    | transact operation work =>
      obtain ⟨marks, known, hok, herror⟩ := h
      replace hrun : (σ.begun desk).transact operation work = (b, after) := hrun
      cases b with
      | ok a =>
        have known := known.later hseen
        have hgives := (State.transact_begun_ok.mp hrun).1
        obtain ⟨τ, -, hτ, hhistory⟩ := State.step_of_gives known hgives
        refine ⟨τ, ?_, ⟨marks, desk, after, known, hgives, hτ, hhistory⟩, seen ++ marks a, ?_,
          hok a⟩
        · rw [hτ.tables, Option.getD_some]
        · rw [hhistory]
          exact List.append_subset.mpr ⟨List.subset_append_of_subset_left _ hseen,
            List.subset_append_right _ _⟩
      | error why =>
        have htables : after.tables = some σ.store := Desk.tables_transact_error hrun
        refine ⟨σ, ?_, ⟨rfl, .inl ⟨desk, after, hrun⟩⟩, seen, hseen, herror why⟩
        rw [htables, Option.getD_some]
    | note level part message fields failure =>
      obtain ⟨-, rfl⟩ := Prod.mk.inj hrun
      refine ⟨σ, ?_, rfl, seen, hseen, h b⟩
      rw [Desk.tables_note]
      rfl
    | now | freshId | bind | restore =>
      obtain ⟨-, rfl⟩ := Prod.mk.inj hrun
      exact ⟨σ, rfl, rfl, seen, hseen, h b⟩
  | call | mention | wallet | stopping =>
    obtain rfl : t = σ.store := answers
    exact ⟨σ, rfl, rfl, seen, hseen, h b⟩

end Effect

namespace Program
variable {α β : Type}

/-- A play of a program: the units of work that it kept, the result that it ends with and the state
at its last effect. Before each effect the others have their run. -/
def Plays (W : World) : Program α → State → List Kept → Checked α → State → Prop
  | done result, σ, own, r, τ => own = [] ∧ result = r ∧ σ = τ
  | perform (β := β) e next, σ, own, r, τ =>
    ∃ (ready : State) (b : β) (left : State) (rest : List Kept),
      State.Run σ ready ∧ W β e b ∧ e.ComesTo ready b left ∧ (next b).Plays W left rest r τ ∧
        own = e.kept ready b left ++ rest

variable {W : World} {σ τ : State} {own : List Kept}

/-- A play is part of a run. -/
theorem Plays.run {p : Program α} {r : Checked α} (h : p.Plays W σ own r τ) : State.Run σ τ := by
  induction p generalizing σ own with
  | done result =>
    obtain ⟨-, -, rfl⟩ := h
    exact .refl
  | perform e next ih =>
    obtain ⟨ready, b, left, rest, others, -, hcomes, hrest, -⟩ := h
    exact others.trans (hcomes.run.trans (ih b hrest))

/-- The units of work of a play are steps of the run it is part of. -/
theorem Plays.steps {p : Program α} {r : Checked α} (h : p.Plays W σ own r τ) :
    ∀ k ∈ own, State.Run k.before k.after := by
  induction p generalizing σ own with
  | done result =>
    obtain ⟨rfl, -, -⟩ := h
    exact fun k hk => absurd hk List.not_mem_nil
  | perform e next ih =>
    obtain ⟨ready, b, left, rest, -, -, hcomes, hrest, rfl⟩ := h
    exact List.forall_mem_append.mpr ⟨hcomes.steps, ih b hrest⟩

/-! ### Programs put together -/

@[simp] theorem plays_done {result r : Checked α} :
    (done result).Plays W σ own r τ ↔ own = [] ∧ result = r ∧ σ = τ := Iff.rfl

@[simp] theorem plays_pure {a : α} {r : Checked α} :
    (pure a : Program α).Plays W σ own r τ ↔ own = [] ∧ .ok a = r ∧ σ = τ := Iff.rfl

@[simp] theorem plays_check {x r : Checked α} :
    (check x).Plays W σ own r τ ↔ own = [] ∧ x = r ∧ σ = τ := Iff.rfl

@[simp] theorem plays_fail {why : Fault} {r : Checked α} :
    (fail why : Program α).Plays W σ own r τ ↔ own = [] ∧ .error why = r ∧ σ = τ := Iff.rfl

/-- Two programs in a row are played one after the other, unless the first one fails. -/
theorem plays_bind {p : Program α} {f : α → Program β} {r : Checked β} :
    (p >>= f).Plays W σ own r τ ↔
      (∃ why, p.Plays W σ own (.error why) τ ∧ .error why = r) ∨
        ∃ a μ first second, p.Plays W σ first (.ok a) μ ∧ (f a).Plays W μ second r τ ∧
          own = first ++ second := by
  change (p.bind f).Plays W σ own r τ ↔ _
  induction p generalizing σ own with
  | done result =>
    cases result with
    | ok a =>
      constructor
      · exact fun h => .inr ⟨a, σ, [], own, ⟨rfl, rfl, rfl⟩, h, rfl⟩
      · rintro (⟨why, ⟨-, h, -⟩, -⟩ | ⟨b, μ, first, second, ⟨rfl, h, rfl⟩, hnext, rfl⟩)
        · cases h
        · cases h
          exact hnext
    | error why =>
      constructor
      · rintro ⟨rfl, rfl, rfl⟩
        exact .inl ⟨why, ⟨rfl, rfl, rfl⟩, rfl⟩
      · rintro (⟨other, ⟨rfl, h, rfl⟩, rfl⟩ | ⟨b, μ, first, second, ⟨-, h, -⟩, -⟩)
        · cases h
          exact ⟨rfl, rfl, rfl⟩
        · cases h
  | perform e next ih =>
    constructor
    · rintro ⟨ready, b, left, rest, others, hworld, hcomes, hrest, rfl⟩
      rcases (ih b).mp hrest with ⟨why, hplay, rfl⟩ | ⟨a, μ, first, second, hplay, hnext, rfl⟩
      · exact .inl ⟨why, ⟨ready, b, left, rest, others, hworld, hcomes, hplay, rfl⟩, rfl⟩
      · exact .inr ⟨a, μ, e.kept ready b left ++ first, second,
          ⟨ready, b, left, first, others, hworld, hcomes, hplay, rfl⟩, hnext,
          (List.append_assoc ..).symm⟩
    · rintro (⟨why, ⟨ready, b, left, rest, others, hworld, hcomes, hplay, rfl⟩, rfl⟩ |
        ⟨a, μ, _, second, ⟨ready, b, left, rest, others, hworld, hcomes, hplay, rfl⟩, hnext, rfl⟩)
      · exact ⟨ready, b, left, rest, others, hworld, hcomes,
          (ih b).mpr (.inl ⟨why, hplay, rfl⟩), rfl⟩
      · exact ⟨ready, b, left, rest ++ second, others, hworld, hcomes,
          (ih b).mpr (.inr ⟨a, μ, rest, second, hplay, hnext, rfl⟩), List.append_assoc ..⟩

/-- Two programs in a row that do not fail. -/
theorem Plays.split {p : Program α} {f : α → Program β} {b : β}
    (h : (p >>= f).Plays W σ own (.ok b) τ) :
    ∃ a μ first second, p.Plays W σ first (.ok a) μ ∧ (f a).Plays W μ second (.ok b) τ ∧
      own = first ++ second := by
  rcases plays_bind.mp h with ⟨why, -, hnever⟩ | hplays
  · cases hnever
  · exact hplays

/-- What follows on a program that succeeds is played after it. -/
theorem Plays.andThen {p : Program α} {f : α → Program β} {a : α} {μ : State} {k l : List Kept}
    {r : Checked β} (hp : p.Plays W σ k (.ok a) μ) (hf : (f a).Plays W μ l r τ) :
    (p >>= f).Plays W σ (k ++ l) r τ :=
  plays_bind.mpr (.inr ⟨a, μ, k, l, hp, hf, rfl⟩)

/-- An attempt is played as what is attempted, and never fails. -/
theorem plays_attempt {p : Program α} {r : Checked (Checked α)} :
    p.attempt.Plays W σ own r τ ↔ ∃ result, p.Plays W σ own result τ ∧ .ok result = r := by
  induction p generalizing σ own with
  | done result =>
    constructor
    · rintro ⟨rfl, rfl, rfl⟩
      exact ⟨result, ⟨rfl, rfl, rfl⟩, rfl⟩
    · rintro ⟨_, ⟨rfl, rfl, rfl⟩, rfl⟩
      exact ⟨rfl, rfl, rfl⟩
  | perform e next ih =>
    constructor
    · rintro ⟨ready, b, left, rest, others, hworld, hcomes, hrest, rfl⟩
      obtain ⟨result, hplay, rfl⟩ := (ih b).mp hrest
      exact ⟨result, ⟨ready, b, left, rest, others, hworld, hcomes, hplay, rfl⟩, rfl⟩
    · rintro ⟨result, ⟨ready, b, left, rest, others, hworld, hcomes, hplay, rfl⟩, rfl⟩
      exact ⟨ready, b, left, rest, others, hworld, hcomes, (ih b).mpr ⟨result, hplay, rfl⟩, rfl⟩

/-! ### Single effects -/

/-- An effect that is no unit of work is answered by the world. -/
theorem plays_perform {γ : Type} {e : Effect γ} {next : γ → Program α} {r : Checked α}
    (other : e.isWork = false) :
    (perform e next).Plays W σ own r τ ↔
      ∃ ready b, State.Run σ ready ∧ W γ e b ∧ (next b).Plays W ready own r τ := by
  constructor
  · rintro ⟨ready, b, left, rest, others, hworld, hcomes, hrest, rfl⟩
    obtain rfl := (Effect.comesTo_of_other other).mp hcomes
    rw [Effect.kept_of_other other]
    exact ⟨left, b, others, hworld, hrest⟩
  · rintro ⟨ready, b, others, hworld, hrest⟩
    refine ⟨ready, b, ready, own, others, hworld, (Effect.comesTo_of_other other).mpr rfl, hrest,
      ?_⟩
    rw [Effect.kept_of_other other]
    rfl

/-- An effect that gives its answer. -/
theorem plays_answer {e : Effect α} {r : Checked α} (other : e.isWork = false) :
    (perform e fun b => done (.ok b)).Plays W σ own r τ ↔
      own = [] ∧ State.Run σ τ ∧ ∃ b, .ok b = r ∧ W α e b := by
  rw [plays_perform other]
  constructor
  · rintro ⟨ready, b, others, hworld, rfl, rfl, rfl⟩
    exact ⟨rfl, others, b, rfl, hworld⟩
  · rintro ⟨rfl, others, b, rfl, hworld⟩
    exact ⟨τ, b, others, hworld, rfl, rfl, rfl⟩

/-- An effect that is no unit of work, before the rest of a program, which is told the answer. -/
theorem Plays.asked {γ : Type} {e : Effect γ} {f : γ → Program α} {r : Checked α}
    (other : e.isWork = false)
    (h : ((perform e fun b => done (.ok b)) >>= f).Plays W σ own r τ) :
    ∃ ready b, State.Run σ ready ∧ W γ e b ∧ (f b).Plays W ready own r τ :=
  (plays_perform other).mp h

/-- An effect that is answered at once. -/
theorem plays_answered {e : Effect α} {b : α} (other : e.isWork = false) (hworld : W α e b) :
    (perform e fun b => done (.ok b)).Plays W σ [] (.ok b) σ :=
  (plays_answer other).mpr ⟨rfl, .refl, b, rfl, hworld⟩

section Effects
variable {operation part message : String} {work : Work α} {level : Log.Level}
  {fields : List (String × Value)}

/-- A unit of work is kept or undone. -/
theorem plays_transact {r : Checked α} :
    (transact operation work).Plays W σ own r τ ↔
      ∃ ready, State.Run σ ready ∧ W _ (.chore (.transact operation work)) r ∧
        ((∃ a, .ok a = r ∧ ready.Keeps work a τ ∧ own = [⟨operation, ready, τ⟩]) ∨
          ∃ why, .error why = r ∧ ready.Undoes operation work why ∧ own = [] ∧ ready = τ) := by
  constructor
  · rintro ⟨ready, b, left, rest, others, hworld, hcomes, ⟨rfl, rfl, rfl⟩, rfl⟩
    cases b with
    | ok a => exact ⟨ready, others, hworld, .inl ⟨a, rfl, hcomes, rfl⟩⟩
    | error why =>
      obtain ⟨rfl, hundone⟩ := hcomes
      exact ⟨left, others, hworld, .inr ⟨why, rfl, hundone, rfl, rfl⟩⟩
  · rintro ⟨ready, others, hworld, ⟨a, rfl, hkept, rfl⟩ | ⟨why, rfl, hundone, rfl, rfl⟩⟩
    · exact ⟨ready, .ok a, τ, [], others, hworld, hkept, ⟨rfl, rfl, rfl⟩, rfl⟩
    · exact ⟨ready, .error why, ready, [], others, hworld, ⟨rfl, hundone⟩, ⟨rfl, rfl, rfl⟩, rfl⟩

/-- A unit of work that is kept at once. -/
theorem plays_kept {a : α} (h : σ.Keeps work a τ)
    (hworld : W _ (.chore (.transact operation work)) (.ok a)) :
    (transact operation work).Plays W σ [⟨operation, σ, τ⟩] (.ok a) τ :=
  plays_transact.mpr ⟨σ, .refl, hworld, .inl ⟨a, rfl, h, rfl⟩⟩

/-- A unit of work that is undone at once. -/
theorem plays_undone {why : Fault} (h : σ.Undoes operation work why)
    (hworld : W _ (.chore (.transact operation work)) (.error why)) :
    (transact operation work).Plays W σ [] (.error why) σ :=
  plays_transact.mpr ⟨σ, .refl, hworld, .inr ⟨why, rfl, h, rfl, rfl⟩⟩

/-- While a line is written nothing happens but what the others do, and then the rest of the program
is played. -/
theorem Plays.noted {failure : Option Failure} {f : Unit → Program α} {r : Checked α}
    (h : ((perform (.chore (.note level part message fields failure)) fun _ => done (.ok ())) >>=
      f).Plays W σ own r τ) :
    ∃ μ, State.Run σ μ ∧ (f ()).Plays W μ own r τ := by
  obtain ⟨μ, _, others, -, hrest⟩ := Plays.asked rfl h
  exact ⟨μ, others, hrest⟩

/-- A unit of work that the rest of a program needs: it is kept, or the program ends with it. -/
theorem Plays.needed {f : α → Program β} {r : Checked β}
    (h : (transact operation work >>= f).Plays W σ own r τ) :
    (∃ why, .error why = r ∧ State.Run σ τ ∧ τ.Undoes operation work why ∧ own = []) ∨
      ∃ ready a μ rest, State.Run σ ready ∧ ready.Keeps work a μ ∧ (f a).Plays W μ rest r τ ∧
        own = ⟨operation, ready, μ⟩ :: rest := by
  rcases plays_bind.mp h with ⟨why, hfailed, rfl⟩ | ⟨a, μ, first, second, hdone, hrest, rfl⟩
  · obtain ⟨ready, others, -, ⟨_, hnever, -⟩ | ⟨_, heq, hundone, rfl, rfl⟩⟩ :=
      plays_transact.mp hfailed
    · cases hnever
    · obtain rfl := Except.error.inj heq
      exact .inl ⟨_, rfl, others, hundone, rfl⟩
  · obtain ⟨ready, others, -, ⟨_, heq, hkept, rfl⟩ | ⟨_, hnever, -⟩⟩ := plays_transact.mp hdone
    · obtain rfl := Except.ok.inj heq
      exact .inr ⟨ready, _, μ, second, others, hkept, hrest, rfl⟩
    · cases hnever

/-- A unit of work that is attempted before the rest of a program, which is told what became of
it. -/
theorem Plays.tried {f : Checked α → Program β} {r : Checked β}
    (h : ((transact operation work).attempt >>= f).Plays W σ own r τ) :
    ∃ ready, State.Run σ ready ∧
      ((∃ a μ rest, ready.Keeps work a μ ∧ (f (.ok a)).Plays W μ rest r τ ∧
          own = ⟨operation, ready, μ⟩ :: rest) ∨
        ∃ why, W _ (.chore (.transact operation work)) (.error why) ∧
          ready.Undoes operation work why ∧ (f (.error why)).Plays W ready own r τ) := by
  rcases plays_bind.mp h with ⟨_, htried, -⟩ | ⟨_, μ, first, second, htried, hrest, rfl⟩
  · obtain ⟨_, -, hnever⟩ := plays_attempt.mp htried
    cases hnever
  · obtain ⟨result, hplay, hresult⟩ := plays_attempt.mp htried
    cases hresult
    obtain ⟨ready, others, hworld, ⟨a, rfl, hkept, rfl⟩ | ⟨why, rfl, hundone, rfl, rfl⟩⟩ :=
      plays_transact.mp hplay
    · exact ⟨ready, others, .inl ⟨a, μ, second, hkept, hrest, rfl⟩⟩
    · exact ⟨ready, others, .inr ⟨why, hworld, hundone, hrest⟩⟩

end Effects

/-- Identifiers that are bound for a while make no difference to a play. -/
theorem Plays.within {p : Program α} {changes : List (Log.Field × String)} {r : Checked α}
    (h : (within changes p).Plays W σ own r τ) :
    ∃ σ' τ', State.Run σ σ' ∧ p.Plays W σ' own r τ' ∧ State.Run τ' τ := by
  obtain ⟨σ', old, others, -, h⟩ := (plays_perform rfl).mp h
  rcases (plays_bind (p := p.attempt)).mp h with
    ⟨why, htried, -⟩ | ⟨result, τ', first, second, htried, hafter, rfl⟩
  · obtain ⟨_, -, hnever⟩ := plays_attempt.mp htried
    cases hnever
  · obtain ⟨_, hplay, hresult⟩ := plays_attempt.mp htried
    cases hresult
    obtain ⟨ready, b, more, -, rfl, rfl, rfl⟩ := (plays_perform rfl).mp hafter
    rw [List.append_nil]
    exact ⟨σ', τ', others, hplay, more⟩

theorem Plays.bound {p : Program α} {changes : List (Log.Field × String)} {r : Checked α}
    (h : p.Plays W σ own r τ) (old : Log.Context) (hbind : W _ (.chore (.bind changes)) old)
    (hrestore : W _ (.chore (.restore old (changes.map (·.1)))) ⟨⟩) :
    (Program.within changes p).Plays W σ own r τ := by
  refine (plays_perform rfl).mpr ⟨σ, old, .refl, hbind, ?_⟩
  refine (plays_bind (p := p.attempt)).mpr (.inr ⟨r, τ, own, [], plays_attempt.mpr ⟨r, h, rfl⟩, ?_,
    (List.append_nil _).symm⟩)
  exact (plays_perform rfl).mpr ⟨τ, ⟨⟩, .refl, hrestore, rfl, rfl, rfl⟩

end Program
end TipJar
