import TipJar.Proofs.Coverage
import TipJar.Proofs.Plays
import TipJar.Proofs.Programs

/-! Many programs at once.

A crowd is the tables and every program that has been set going, each as far as it
has come. What happens next is anybody's move: one program has its next effect, a
new one is set going, or the operator's tool is run. Answers that do not come from
the tables are any at all. Every such history of a crowd is a run, so what holds of
the tables in all runs holds whoever shares them, and in whatever order they come
to act. -/
namespace TipJar
open Ledger

/-- The programs that are ever set going, and units of work asked for by hand. -/
inductive Program.IsIssued : {α : Type} → Program α → Prop
  | tip (t : Tipping) (honest : t.execute = execute) (author channel recipient : String)
      (amount : Amount) : IsIssued (t.tipAccount author channel recipient amount)
  | roleTip (t : Tipping) (honest : t.execute = execute) (author channel role : String)
      (amount : Amount) : IsIssued (t.tipRole author channel role amount)
  | drop (t : Tipping) (author channel token : String) (amount : Amount) (duration unit : Value) :
      IsIssued (t.startDrop author channel token amount duration unit)
  | balance (who : Value) : IsIssued (Tipping.balance who)
  | preference (who preference : Value) : IsIssued (Tipping.setPreference who preference)
  | notice (n : Notifier) (r : Transfer.Receipt) (channel : String)
      (preferences : Option Preferences) : IsIssued (n.notify r channel preferences)
  | sweep (s : Sweeper) (honest : s.execute = execute) : IsIssued s.sweep
  | round (s : Sweeper) (honest : s.execute = execute) : IsIssued s.round
  | settling (s : Sweeper) (honest : s.execute = execute) (id : Uuid) : IsIssued (s.settleOne id)
  | audit : IsIssued Supply.audit
  | unit (operation : String) (deed : Deed) (allowed : deed.Allowed []) :
      IsIssued (Program.transact operation deed.work)

theorem Program.IsIssued.orderly {α : Type} {p : Program α} (h : p.IsIssued) :
    p.IsOrderly [] := by
  cases h with
  | tip _ honest => exact Tipping.orderly_tipAccount honest
  | roleTip _ honest => exact Tipping.orderly_tipRole honest
  | drop => exact Tipping.orderly_startDrop
  | balance => exact Tipping.orderly_balance
  | preference => exact Tipping.orderly_setPreference
  | notice => exact Notifier.orderly_notify
  | sweep _ honest => exact Sweeper.orderly_sweep honest
  | round _ honest => exact Sweeper.orderly_round honest
  | settling _ honest => exact Sweeper.orderly_settleOne honest
  | audit => exact Supply.orderly_audit
  | unit operation deed allowed =>
    exact Program.orderly_transact fun seen hseen =>
      ⟨id, .inr ⟨deed, allowed.later hseen, (bind_pure deed.work).symm⟩⟩

/-- The tables, and the programs that were set going, each as far as it has come. -/
structure Crowd where
  store : Store
  going : List ((α : Type) × Program α)

namespace Crowd

/-- Nobody has done anything yet. -/
def empty : Crowd := ⟨.empty, []⟩

/-- Somebody's next move. -/
inductive Move : Crowd → Crowd → Prop
  | issued {s : Store} {going : List ((α : Type) × Program α)} {α : Type} {p : Program α}
      (issued : p.IsIssued) : Move ⟨s, going⟩ ⟨s, ⟨α, p⟩ :: going⟩
  | answered {s t : Store} {before behind : List ((α : Type) × Program α)} {α β : Type}
      {e : Effect β} {next : β → Program α} {b : β} (answers : e.Answers s b t) :
      Move ⟨s, before ++ ⟨α, .perform e next⟩ :: behind⟩ ⟨t, before ++ ⟨α, next b⟩ :: behind⟩
  | operated {s : Store} {going : List ((α : Type) × Program α)} (c : Config) (today : Moment)
      (command : Operator.Command) (desk : Desk) :
      Move ⟨s, going⟩
        ⟨(command.run c today { desk with tables := some s, spoiled := false }).2.tables.getD s,
          going⟩

end Crowd

namespace State
variable {σ τ : State}

/-- The next effect of a program that keeps to what it may do is a step of a run or none, and the
program goes on keeping to it. -/
theorem step_of_answers {β : Type} {e : Effect β} {seen : List Mark} {K : β → List Mark → Prop}
    {b : β} {t : Store} (h : e.Keeps seen K) (hseen : seen ⊆ σ.history)
    (answers : e.Answers σ.store b t) :
    ∃ τ, Relation.ReflGen Step σ τ ∧ τ.store = t ∧ ∃ more, more ⊆ τ.history ∧ K b more := by
  obtain ⟨τ, hstore, hcomes, hmore⟩ := Effect.comesTo_of_answers h hseen answers
  exact ⟨τ, hcomes.step, hstore, hmore⟩

/-- The operator's tool takes a step of a run or none. -/
theorem step_of_operated (c : Config) (today : Moment) (command : Operator.Command) (desk : Desk) :
    ∃ τ, Relation.ReflGen Step σ τ ∧
      τ.store = (command.run c today (σ.begun desk)).2.tables.getD σ.store := by
  have hrun : (command.run c today (σ.begun desk)).2 =
      ((σ.begun desk).commit (command.work c today)).2 := rfl
  rw [hrun]
  rcases hdone : (σ.begun desk).commit (command.work c today) with ⟨why | told, after⟩
  · have htables : after.tables = some σ.store := Desk.tables_commit_error hdone
    refine ⟨σ, .refl, ?_⟩
    show σ.store = after.tables.getD σ.store
    rw [htables, Option.getD_some]
  · obtain ⟨marks, known⟩ := Operator.isKnown_work c today command σ.history
    obtain ⟨τ, step, hτ, -⟩ := step_of_gives known (Desk.commit_ok.mp hdone).1
    refine ⟨τ, step, ?_⟩
    show τ.store = after.tables.getD σ.store
    rw [hτ.tables, Option.getD_some]

end State

namespace Crowd

/-- A crowd whose tables are those of a state, and whose programs keep to what they may do there. -/
structure Follows (c : Crowd) (σ : State) : Prop where
  store : σ.store = c.store
  orderly : ∀ p ∈ c.going, ∃ seen, seen ⊆ σ.history ∧ p.2.Keeps seen fun _ _ => True

/-- Every move is a step of a run or none. -/
theorem Move.follows {c d : Crowd} {σ : State} (move : Move c d) (h : c.Follows σ) :
    ∃ τ, Relation.ReflGen State.Step σ τ ∧ d.Follows τ := by
  obtain ⟨hstore, horderly⟩ := h
  cases move with
  | @issued s going α p issued =>
    refine ⟨σ, .refl, hstore, ?_⟩
    intro q hq
    rcases List.mem_cons.mp hq with rfl | hq
    · exact ⟨[], List.nil_subset _,
        (issued.orderly [] (List.Subset.refl _)).imp fun _ _ _ => trivial⟩
    · exact horderly q hq
  | @answered s t before behind α β e next b answers =>
    obtain ⟨seen, hseen, hkeeps⟩ := horderly ⟨α, .perform e next⟩
      (List.mem_append_right _ List.mem_cons_self)
    obtain rfl : σ.store = s := hstore
    obtain ⟨τ, step, hτ, more, hmore, hnext⟩ := State.step_of_answers hkeeps hseen answers
    have run : State.Run σ τ := step.to_reflTransGen
    refine ⟨τ, step, hτ, ?_⟩
    intro q hq
    -- The others have seen no more than before, and the history has only grown.
    have hothers (hq : q ∈ before ∨ q ∈ behind) :
        ∃ seen, seen ⊆ τ.history ∧ q.2.Keeps seen fun _ _ => True := by
      obtain ⟨seen, hseen, hkeeps⟩ := horderly q (List.mem_append.mpr (hq.imp_right
        (List.mem_cons_of_mem _)))
      exact ⟨seen, List.Subset.trans hseen run.history_subset, hkeeps⟩
    rcases List.mem_append.mp hq with hq | hq
    · exact hothers (.inl hq)
    · rcases List.mem_cons.mp hq with rfl | hq
      · exact ⟨more, hmore, hnext⟩
      · exact hothers (.inr hq)
  | @operated s going config today command desk =>
    obtain ⟨τ, step, hτ⟩ := State.step_of_operated (σ := σ) config today command desk
    have run : State.Run σ τ := step.to_reflTransGen
    refine ⟨τ, step, ?_, ?_⟩
    · obtain rfl : σ.store = s := hstore
      exact hτ
    · intro q hq
      obtain ⟨seen, hseen, hkeeps⟩ := horderly q hq
      exact ⟨seen, List.Subset.trans hseen run.history_subset, hkeeps⟩

/-- Whatever a crowd has done to the tables, a run has done. -/
theorem reachable_of_moves {c : Crowd} (h : Relation.ReflTransGen Move empty c) :
    ∃ σ, σ.Reachable ∧ c.Follows σ := by
  induction h with
  | refl => exact ⟨.start, .refl, rfl, fun _ hp => absurd hp List.not_mem_nil⟩
  | tail _ move ih =>
    obtain ⟨σ, hσ, hfollows⟩ := ih
    obtain ⟨τ, step, hτ⟩ := move.follows hfollows
    exact ⟨τ, hσ.run step.to_reflTransGen, hτ⟩

/-- As long as no move leaves a balance beyond its column, the same is true of the run. -/
theorem contained_of_moves {c : Crowd}
    (h : Relation.ReflTransGen (fun c d => Move c d ∧ d.store.Bounded) empty c) :
    ∃ σ, σ.Contained ∧ c.Follows σ := by
  induction h with
  | refl => exact ⟨.start, .refl, rfl, fun _ hp => absurd hp List.not_mem_nil⟩
  | tail _ move ih =>
    obtain ⟨move, bounded⟩ := move
    obtain ⟨σ, hσ, hfollows⟩ := ih
    obtain ⟨τ, step, hτ⟩ := move.follows hfollows
    exact ⟨τ, hσ.next step (hτ.store.symm ▸ bounded), hτ⟩

/-- Whoever shares the tables, every hold is covered as long as balances fit their columns. -/
theorem covered_of_moves {c : Crowd}
    (h : Relation.ReflTransGen (fun c d => Move c d ∧ d.store.Bounded) empty c) :
    c.store.Covered := by
  obtain ⟨σ, hσ, hfollows⟩ := contained_of_moves h
  rw [← hfollows.store]
  exact hσ.covered

end Crowd
end TipJar
