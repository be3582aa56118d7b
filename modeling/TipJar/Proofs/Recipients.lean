import TipJar.Proofs.Settling

/-! Who gets a share.

The platform lists accounts as it likes: one twice, or the very account that pays. An
engine is never shown that. What a sweeper has looked up and what a role consists of
is cleaned first: every listed account once, in the order in which they were first
listed, and without the source. So a request that a sweep or a role tip makes is
refused for its size or for want of destinations, and never for how they were listed. -/
namespace TipJar

/-! ### Each account once -/

namespace Drop
open eligible (firsts)

/-- Accounts keep the order of their first places. -/
theorem pairwise_firsts (listed : List String) :
    (firsts listed).Pairwise fun a b => listed.idxOf a < listed.idxOf b := by
  induction listed with
  | nil => exact .nil
  | cons name rest ih =>
    refine List.pairwise_cons.mpr ⟨fun other hother => ?_, ?_⟩
    · have hne : other ≠ name := by simpa using (List.mem_filter.mp hother).2
      rw [List.idxOf_cons_self, List.idxOf_cons_ne _ hne.symm]
      exact Nat.succ_pos _
    · refine (ih.filter _).imp_of_mem fun {a b} ha hb hab => ?_
      have hane : a ≠ name := by simpa using (List.mem_filter.mp ha).2
      have hbne : b ≠ name := by simpa using (List.mem_filter.mp hb).2
      rw [List.idxOf_cons_ne _ hane.symm, List.idxOf_cons_ne _ hbne.symm]
      exact Nat.succ_lt_succ hab

/-- Where nothing is listed twice there is nothing to leave out. -/
theorem firsts_of_nodup {listed : List String} (h : listed.Nodup) : firsts listed = listed := by
  induction listed with
  | nil => rfl
  | cons name rest ih =>
    obtain ⟨hnew, hrest⟩ := List.nodup_cons.mp h
    rw [firsts, ih hrest, List.filter_eq_self.mpr]
    intro other hother
    exact bne_iff_ne.mpr fun heq => hnew (heq ▸ hother)

theorem pairwise_eligible (listed : List String) (own : String) :
    (eligible listed own).Pairwise fun a b => listed.idxOf a < listed.idxOf b :=
  (pairwise_firsts listed).filter _

/-- A list that is clean stays as it is. -/
theorem eligible_eligible (listed : List String) (own : String) :
    eligible (eligible listed own) own = eligible listed own := by
  have hfirsts := firsts_of_nodup (nodup_eligible listed own)
  rw [eligible, hfirsts, List.filter_eq_self]
  exact fun name hname => (List.mem_filter.mp hname).2

end Drop

/-! ### Clean requests -/

/-- Whether no destination is named twice and none is the source. -/
def Transfer.Intent.IsClean (i : Transfer.Intent) : Prop :=
  i.destinations.Nodup ∧ i.source ∉ i.destinations

instance (i : Transfer.Intent) : Decidable i.IsClean :=
  inferInstanceAs (Decidable (i.destinations.Nodup ∧ i.source ∉ i.destinations))

theorem Transfer.Intent.isClean_eligible (listed : List String) (own : String) (amount : Amount)
    (kind : Transfer.Kind) :
    (⟨own, Drop.eligible listed own, amount, kind⟩ : Transfer.Intent).IsClean :=
  ⟨Drop.nodup_eligible listed own, Drop.not_mem_eligible listed own⟩

/-- All that can be wrong with a clean request. -/
theorem Transfer.Intent.IsClean.check_eq {i : Transfer.Intent} (h : i.IsClean) (minimum : Amount) :
    i.check minimum =
      if i.destinations = [] then .error (.invalidSplit .noDestinations)
      else if i.amount < minimum then .error (.belowMinimum i.amount minimum)
      else .ok () := by
  unfold Intent.check
  rw [if_neg (not_not.mpr h.1), if_neg h.2]

/-- The engine that does as one says with clean requests, and as another says with all others. -/
def Executor.onClean (execute other : Executor) : Executor := fun i minimum except =>
  if i.IsClean then execute i minimum except else other i minimum except

theorem Executor.onClean_eq {execute other : Executor} {i : Transfer.Intent} (h : i.IsClean)
    (minimum : Amount) (except : Option Uuid) :
    execute.onClean other i minimum except = execute i minimum except := if_pos h

/-! ### What engines are asked for -/

namespace Sweeper
variable (s : Sweeper) (other : Executor)

theorem settle_onClean {d : Drop} {participants : List String}
    (clean : (⟨d.initiator, participants, d.amount, .drop⟩ : Transfer.Intent).IsClean) :
    { s with execute := s.execute.onClean other }.settle d participants =
      s.settle d participants := by
  have hpays : { s with execute := s.execute.onClean other }.payOut d participants =
      s.payOut d participants := by
    unfold payOut
    dsimp only
    rw [Executor.onClean_eq clean]
  unfold settle
  rw [hpays]

/-- Whatever was looked up, the engine is not asked for anything that is not clean. -/
theorem settleOne_onClean (id : Uuid) :
    { s with execute := s.execute.onClean other }.settleOne id = s.settleOne id := by
  unfold settleOne
  refine congrArg (bind _) (funext fun claimed => ?_)
  cases claimed with
  | error why =>
    cases why with
    | refused refusal => cases refusal <;> rfl
    | _ => rfl
  | ok d =>
    refine congrArg (bind _) (funext fun answer => ?_)
    cases answer with
    | error why => rfl
    | ok reacted =>
      have hclean := Transfer.Intent.isClean_eligible reacted d.initiator d.amount .drop
      dsimp only
      cases hnamed : Drop.eligible reacted d.initiator with
      | nil => rfl
      | cons first rest => exact s.settle_onClean other (hnamed ▸ hclean)

end Sweeper

namespace Tipping
variable (t : Tipping) (other : Executor)

theorem settle_onClean {i : Transfer.Intent} (clean : i.IsClean) (channel : String)
    (minimum : Amount) :
    { t with execute := t.execute.onClean other }.settle i channel minimum =
      t.settle i channel minimum := by
  unfold settle
  dsimp only
  rw [Executor.onClean_eq clean]

/-- Whoever belongs to a role, the engine is not asked for anything that is not clean. -/
theorem tipRole_onClean (author channel role : String) (amount : Amount) :
    { t with execute := t.execute.onClean other }.tipRole author channel role amount =
      t.tipRole author channel role amount := by
  unfold tipRole
  refine congrArg (asRequest author) (congrArg (bind _) (funext fun _ =>
    congrArg (bind _) (funext fun _ => congrArg (bind _) (funext fun members => ?_))))
  exact t.settle_onClean other (Transfer.Intent.isClean_eligible members author amount .role) ..

end Tipping

/-- Recipients are clean before an engine sees them. Of the accounts that are listed each is there
once and in the order of first places, but for the source, and to clean them again changes nothing.
A request to them is not refused for naming one twice or its own source, and it makes no difference
to a sweeper or to a role tip what the engine does with requests of any other kind. -/
theorem Drop.recipients_clean (listed : List String) (own : String) :
    (eligible listed own).Nodup ∧ own ∉ eligible listed own ∧
      (∀ name, name ∈ eligible listed own ↔ name ∈ listed ∧ name ≠ own) ∧
      ((eligible listed own).Pairwise fun a b => listed.idxOf a < listed.idxOf b) ∧
      eligible (eligible listed own) own = eligible listed own ∧
      (∀ amount kind minimum,
        (⟨own, eligible listed own, amount, kind⟩ : Transfer.Intent).check minimum =
          if eligible listed own = [] then .error (.invalidSplit .noDestinations)
          else if amount < minimum then .error (.belowMinimum amount minimum)
          else .ok ()) ∧
      (∀ (s : Sweeper) (other : Executor) (id : Uuid),
        { s with execute := s.execute.onClean other }.settleOne id = s.settleOne id) ∧
      ∀ (t : Tipping) (other : Executor) (author channel role : String) (amount : Amount),
        { t with execute := t.execute.onClean other }.tipRole author channel role amount =
          t.tipRole author channel role amount := by
  refine ⟨nodup_eligible listed own, not_mem_eligible listed own, fun _ => mem_eligible,
    pairwise_eligible listed own, eligible_eligible listed own, fun amount kind minimum => ?_,
    fun s other id => s.settleOne_onClean other id,
    fun t other author channel role amount => t.tipRole_onClean other author channel role amount⟩
  exact (Transfer.Intent.isClean_eligible listed own amount kind).check_eq minimum

example : Drop.eligible ["bob", "alice", "carol", "bob"] "alice" = ["bob", "carol"] := by decide

end TipJar
