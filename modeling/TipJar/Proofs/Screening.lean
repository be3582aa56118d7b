import TipJar.Proofs.Executions
import TipJar.Proofs.Overdrafts

/-! Checks in their order.

A command checks one thing after the other, some of them itself and some within units
of work. Here checks are a list, each of them the fault that it ends in if it is not
passed, and what is reported is the first fault of the list. Work that makes some
checks and then others makes those of the one list and then those of the other, so
what takes precedence over what is read from the list, however many checks fail at
once. -/
namespace TipJar
open Ledger

/-- The fault of a check that is not passed. -/
def Checked.fault? {α : Type} : Checked α → Option Fault
  | .ok _ => none
  | .error why => some why

namespace Fault

/-- The fault of a check that refuses something. -/
def refusedIf (c : Prop) [Decidable c] (why : Refusal) : Option Fault :=
  if c then some (.refused why) else none

/-- The first fault of some checks, which is the one that is reported. -/
def first (checks : List (Option Fault)) : Option Fault := checks.findSome? id

section
variable {c : Prop} [Decidable c] {why : Refusal} {checks more : List (Option Fault)} {f : Fault}

theorem refusedIf_pos (h : c) : refusedIf c why = some (.refused why) := if_pos h

theorem refusedIf_neg (h : ¬c) : refusedIf c why = none := if_neg h

@[simp] theorem first_nil : first [] = none := rfl

@[simp] theorem first_none : first (none :: checks) = first checks := rfl

@[simp] theorem first_some : first (some f :: checks) = some f := rfl

theorem first_append (checks more : List (Option Fault)) :
    first (checks ++ more) = (first checks).or (first more) := List.findSome?_append

/-- Checks that are passed leave the report to those that come after them. -/
theorem first_append_of_none (h : first checks = none) : first (checks ++ more) = first more := by
  rw [first_append, h, Option.none_or]

theorem first_append_of_some (h : first checks = some f) : first (checks ++ more) = some f := by
  rw [first_append, h, Option.some_or]

end
end Fault

namespace Ledger

/-! ### Work that makes checks -/

namespace Work
variable {α : Type} {s : Store} {checks : List (Option Fault)}

/-- Whether work makes some checks in order. It fails with the first fault there is, and where there
is none nothing but the store can fail it. -/
structure Reports (work : Work α) (s : Store) (checks : List (Option Fault)) : Prop where
  fails : work.FailsOnly s fun why =>
    Fault.first checks = some why ∨ Fault.first checks = none ∧ ∃ cause, why = .store cause
  gives : ∀ ⦃desk : Desk⦄ ⦃a : α⦄ ⦃after : Desk⦄, desk.Holds s → work.Gives desk a after →
    Fault.first checks = none

theorem reports_of_fault {work : Work α} {why : Fault} (fault : Fault.first checks = some why)
    (fails : work.FailsOnly s (· = why))
    (never : ∀ desk a after, desk.Holds s → ¬work.Gives desk a after) :
    work.Reports s checks where
  fails := fails.imp fun _ h => .inl (h ▸ fault)
  gives desk a after hs h := absurd h (never desk a after hs)

theorem reports_of_passed {work : Work α} (passed : Fault.first checks = none)
    (fails : work.FailsOnly s fun why => ∃ cause, why = .store cause) :
    work.Reports s checks where
  fails := fails.imp fun _ h => .inr ⟨passed, h⟩
  gives _ _ _ _ _ := passed

end Work

/-! ### Names -/

/-- The check of the name of an account. -/
def nameFault (name : String) : Option Fault :=
  Checked.fault? ((checkName (.text name)).mapError .refused)

section Names
variable {name : String} {names : List String} {s : Store}

theorem nameFault_of_error {why : Refusal} (h : checkName (.text name) = .error why) :
    nameFault name = some (.refused why) := by
  unfold nameFault
  rw [h]
  rfl

theorem nameFault_eq_none : nameFault name = none ↔ IsName name := by
  constructor
  · intro h
    cases hname : checkName (.text name) with
    | ok other =>
      have hsame := (checkName_ok hname).1
      obtain rfl := Option.some.inj hsame
      exact hname
    | error why => cases (nameFault_of_error hname).symm.trans h
  · intro named
    unfold nameFault
    rw [show checkName (.text name) = .ok name from named]
    rfl

theorem first_names : Fault.first (names.map nameFault) = none ↔ ∀ name ∈ names, IsName name := by
  unfold Fault.first
  rw [List.findSome?_eq_none_iff, List.forall_mem_map]
  exact forall₂_congr fun _ _ => nameFault_eq_none

/-- Source and destinations are checked together, the source coming last. -/
theorem first_parties : Fault.first ((names ++ [name]).map nameFault) = none ↔
    ∀ party ∈ name :: names, IsName party := by
  rw [first_names]
  exact forall_congr' fun party => by rw [(List.perm_append_singleton name names).mem_iff]

/-- Names are checked one after the other, and the first that is none is reported. -/
theorem checkEach_first {credits : List (String × Amount)} {why : Fault}
    (fault : Fault.first ((credits.map (·.1)).map nameFault) = some why) :
    (forIn credits PUnit.unit fun c _ =>
      (Work.check ((checkName (.text c.1)).mapError Fault.refused) >>= fun _ =>
        pure (ForInStep.yield PUnit.unit))).FailsOnly s (· = why) := by
  induction credits with
  | nil => cases fault
  | cons c rest ih =>
    rw [List.forIn_cons]
    cases hname : checkName (.text c.1) with
    | ok other =>
      have hpassed : nameFault c.1 = none := by
        unfold nameFault
        rw [hname]
        rfl
      rw [List.map_cons, List.map_cons, hpassed, Fault.first_none] at fault
      exact Work.failsOnly_pure.bind fun desk step mid hs h => by
        obtain ⟨rfl, rfl⟩ := Work.gives_pure.mp h
        exact ⟨s, hs, ih fault⟩
    | error refusal =>
      rw [List.map_cons, List.map_cons, nameFault_of_error hname, Fault.first_some] at fault
      obtain rfl := Option.some.inj fault
      exact (Work.failsOnly_throw (P := (· = _)) rfl).bind fun _ _ _ _ h =>
        absurd h Work.gives_throw

end Names

/-! ### Units of work of commands -/

namespace Store
variable (s : Store) (author : String)

/-- The check of the list of those who may not act. -/
def listFault : Option Fault :=
  Fault.refusedIf ((s.settings author).2 = true) (.blacklisted author)

/-- The check of what can be spent. -/
def fundsFault (total : Amount) : Option Fault :=
  Fault.refusedIf ((s.view author none).available < total)
    (.insufficientFunds author total (s.view author none).available)

/-- The checks of a transfer. -/
def transferChecks (i : Transfer.Intent) (minimum : Amount) : List (Option Fault) :=
  Checked.fault? ((i.check minimum).mapError .refused) ::
    ((i.destinations ++ [i.source]).map nameFault ++ [s.fundsFault i.source i.split.moved])

end Store

section Units
variable {s : Store} {author : String} {amount : Amount}

theorem isBlacklisted_gives {desk after : Desk} {listed : Bool} :
    (isBlacklisted (.text author)).Gives desk listed after ↔
      ∃ s, desk.Holds s ∧ (s.settings author).2 = listed ∧ desk = after := by
  have hkey : lookupKey (.text author) = .ok (some author) := lookupKey_of_text rfl
  have hlisted (s : Store) :
      ((s.account? author).map (·.blacklisted)).getD false = (s.settings author).2 := by
    unfold Store.settings
    cases s.account? author <;> rfl
  unfold isBlacklisted
  simp only [Work.gives_bind, Work.gives_check, hkey, Work.gives_read]
  constructor
  · intro h
    obtain ⟨key, _, ⟨hkey, rfl⟩, s, hs, hfound, rfl⟩ := h
    obtain rfl := Except.ok.inj hkey
    exact ⟨s, hs, (hlisted s).symm.trans hfound, rfl⟩
  · intro h
    obtain ⟨s, hs, hfound, rfl⟩ := h
    exact ⟨some author, desk, ⟨rfl, rfl⟩, s, hs, (hlisted s).trans hfound, rfl⟩

theorem requireAllowed_reports :
    (requireAllowed (.text author)).Reports s [s.listFault author] := by
  cases listed : (s.settings author).2 with
  | false =>
    refine Work.reports_of_passed ?_ (requireAllowed_failsOnly listed)
    unfold Store.listFault
    rw [Fault.refusedIf_neg (by rw [listed]; exact Bool.false_ne_true)]
    rfl
  | true =>
    have hnamed : ((lookupKey (.text author)).toOption.getD none).getD "" = author := by
      rw [show lookupKey (.text author) = .ok (some author) from lookupKey_of_text rfl]
      rfl
    have hread {desk after : Desk} {found : Bool} (hs : desk.Holds s)
        (h : (isBlacklisted (.text author)).Gives desk found after) :
        found = true ∧ after.Holds s := by
      obtain ⟨t, ht, rfl, rfl⟩ := isBlacklisted_gives.mp h
      obtain rfl := hs.unique ht
      exact ⟨listed, hs⟩
    have fault : Fault.first [s.listFault author] = some (.refused (.blacklisted author)) := by
      rw [Store.listFault, Fault.refusedIf_pos listed, Fault.first_some]
    refine Work.reports_of_fault fault ?_ ?_
    · refine Work.FailsOnly.bind (Work.failsOnly_of_gives fun desk hs =>
        ⟨true, desk, isBlacklisted_gives.mpr ⟨s, hs, listed, rfl⟩⟩) fun desk found mid hs h => ?_
      obtain ⟨rfl, hs⟩ := hread hs h
      refine ⟨s, hs, Work.failsOnly_note.ask Work.reads_note fun _ => ?_⟩
      rw [hnamed]
      exact Work.failsOnly_refuse rfl
    · intro desk u after hs h
      obtain ⟨found, mid, hfound, h⟩ := Work.gives_bind.mp h
      obtain ⟨rfl, -⟩ := hread hs hfound
      obtain ⟨_, _, -, hnever⟩ := Work.gives_bind.mp h
      exact Work.gives_refuse hnever

theorem checkAvailable_reports (summed : (s.held author none).units ≤ columnMax) :
    (checkAvailable (.text author) amount).Reports s
      [nameFault author, s.fundsFault author amount] := by
  by_cases named : IsName author
  case neg =>
    cases hname : checkName (.text author) with
    | ok other =>
      obtain rfl := Option.some.inj (checkName_ok hname).1
      exact absurd hname named
    | error refusal =>
      refine Work.reports_of_fault (by rw [nameFault_of_error hname, Fault.first_some]) ?_ ?_
      · have hlock : (lockOne (.text author)).FailsOnly s (· = .refused refusal) :=
          (ensure_failsOnly fun why h => by cases hname.symm.trans h; rfl).bind
            fun _ _ _ hs h => by
              obtain ⟨_, _, _, hok, _⟩ := ensure_gives.mp h
              cases hname.symm.trans hok
        exact hlock.bind fun desk u mid hs h => by
          obtain ⟨_, _, _, hok, _⟩ := lockOne_gives.mp h
          cases hname.symm.trans hok
      · intro desk available after _ h
        obtain ⟨_, _, _, hok, _⟩ := checkAvailable_gives.mp h
        cases hname.symm.trans hok
  rw [nameFault_eq_none.mpr named]
  by_cases short : (s.view author none).available < amount
  · refine Work.reports_of_fault ?_ (checkAvailable_overdrawn named summed short)
      fun desk available after hs => not_gives_checkAvailable hs named short
    unfold Store.fundsFault
    rw [Fault.refusedIf_pos short]
    rfl
  · refine Work.reports_of_passed ?_ (Work.failsOnly_of_gives fun desk hs =>
      ⟨_, _, checkAvailable_gives.mpr ⟨s, author, hs, named, summed, short, rfl, rfl⟩⟩)
    unfold Store.fundsFault
    rw [Fault.refusedIf_neg short]
    rfl

end Units

section Transfers
variable {s : Store} {i : Transfer.Intent} {minimum : Amount}

/-- A debit of accounts that cannot all be named is refused for the first name that is none. -/
theorem debitAndCredit_misnamed {source : String} {credits : List (String × Amount)}
    {except : Option Uuid} {why : Fault} (nonempty : credits ≠ [])
    (fault : Fault.first ((credits.map (·.1) ++ [source]).map nameFault) = some why) :
    (debitAndCredit source credits except).FailsOnly s (· = why) := by
  rw [List.map_append, List.map_singleton] at fault
  cases hfirst : Fault.first ((credits.map (·.1)).map nameFault) with
  | some other =>
    obtain rfl := Option.some.inj ((Fault.first_append_of_some hfirst).symm.trans fault)
    unfold debitAndCredit
    rw [if_neg (by rwa [List.isEmpty_iff])]
    refine (checkEach_first hfirst).bind fun desk u mid hs hgives => ?_
    obtain ⟨hnames, -⟩ := Work.gives_forIn_check.mp hgives
    have hnamed : ∀ name ∈ credits.map (·.1), IsName name := by
      intro name hname
      obtain ⟨c, hc, rfl⟩ := List.mem_map.mp hname
      obtain ⟨other, hother⟩ := hnames c hc
      have hok := checked_refused.mp hother
      obtain rfl := Option.some.inj (checkName_ok hok).1
      exact hok
    cases hfirst.symm.trans (first_names.mpr hnamed)
  | none =>
    rw [Fault.first_append_of_none hfirst] at fault
    have hnamed := first_names.mp hfirst
    refine debitAndCredit_unnamed nonempty (fun name hname reason herror => ?_) fun named => ?_
    · rcases List.mem_cons.mp hname with rfl | hname
      · rw [nameFault_of_error herror] at fault
        exact Option.some.inj fault
      · cases (hnamed name hname).symm.trans herror
    · rw [nameFault_eq_none.mpr (named source List.mem_cons_self)] at fault
      cases fault

/-- A transfer among accounts that cannot all be named is refused for the first name that is
none. -/
theorem execute_misnamed {except : Option Uuid} {why : Fault} (proper : i.check minimum = .ok ())
    (fault : Fault.first ((i.destinations ++ [i.source]).map nameFault) = some why) :
    (execute i minimum except).FailsOnly s (· = why) := by
  have nonempty : i.credits ≠ [] := by
    unfold Transfer.Intent.credits
    exact fun hnil => (Transfer.Intent.check_ok.mp proper).1 (List.map_eq_nil_iff.mp hnil)
  rw [← i.map_fst_credits] at fault
  refine execute_denied (debitAndCredit_misnamed nonempty fault) (fun desk total after hs h => ?_)
    proper
  obtain ⟨_, _, _, named, -⟩ := debitAndCredit_gives.mp h
  cases fault.symm.trans (first_parties.mpr named)

/-- A transfer makes its own checks, then those of the names of all parties, the source coming last,
and then that of the funds. -/
theorem execute_reports (covered : s.Covered) (counts : s.Counts i.source none)
    (fits : i.amount.units ≤ columnMax) :
    (execute i minimum none).Reports s (s.transferChecks i minimum) := by
  have hpays {desk after : Desk} {receipt : Transfer.Receipt} (hs : desk.Holds s)
      (h : (execute i minimum none).Gives desk receipt after) :
      i.check minimum = .ok () ∧ ∀ party ∈ i.source :: i.destinations, IsName party := by
    obtain ⟨_, _, _, pays, -⟩ := execute_gives.mp h
    exact ⟨pays.proper, pays.names⟩
  unfold Store.transferChecks
  cases hcheck : i.check minimum with
  | error why =>
    refine Work.reports_of_fault rfl (execute_improper hcheck rfl) fun desk receipt after hs h => ?_
    cases hcheck.symm.trans (hpays hs h).1
  | ok u =>
    show Work.Reports _ s (none :: _)
    cases hnamed : Fault.first ((i.destinations ++ [i.source]).map nameFault) with
    | some why =>
      refine Work.reports_of_fault (Fault.first_append_of_some hnamed)
        (execute_misnamed hcheck hnamed) fun desk receipt after hs h => ?_
      cases hnamed.symm.trans (first_parties.mpr (hpays hs h).2)
    | none =>
      have named := first_parties.mp hnamed
      have hmoved : i.split.moved.units ≤ i.amount.units := Transfer.Intent.moved_le
      have hfunds : Fault.first (none ::
          ((i.destinations ++ [i.source]).map nameFault ++
            [s.fundsFault i.source i.split.moved])) =
          Fault.first [s.fundsFault i.source i.split.moved] := by
        rw [Fault.first_none, Fault.first_append_of_none hnamed]
      by_cases short : (s.view i.source none).available < i.split.moved
      · have hfails := execute_overdrawn hcheck named counts short
        unfold overdraft at hfails
        rw [if_pos (by omega)] at hfails
        refine Work.reports_of_fault ?_ hfails fun desk receipt after hs =>
          not_gives_overdrawn hs counts.balance short
        rw [hfunds, Store.fundsFault, Fault.refusedIf_pos short, Fault.first_some]
      · refine Work.reports_of_passed ?_ (execute_failsOnly.imp fun why fault => ?_)
        · rw [hfunds, Store.fundsFault, Fault.refusedIf_neg short, Fault.first_none,
            Fault.first_nil]
        · have hroom : s.Covers i.source none i.split.moved := by
            have henough : i.split.moved.units ≤ (s.view i.source none).available.units :=
              Nat.not_lt.mp short
            rw [Balance.units_available] at henough
            change _ ≤ (s.balance i.source).units - (s.held i.source none).units at henough
            have hheld := covered i.source
            rw [Store.covers_iff_of_fits none counts.balance]
            omega
          cases fault with
          | improper improper => cases hcheck.symm.trans improper
          | unrecorded cause => exact ⟨cause, rfl⟩
          | denied _ denial =>
            cases denial with
            | nobody none => exact absurd none (Transfer.Intent.check_ok.mp hcheck).1
            | unnamed _ party unnamed => exact absurd (named _ party) unnamed
            | oversized large => omega
            | overflowed => exact ⟨.overflowed, rfl⟩
            | uncovered _ _ short => exact absurd hroom short

end Transfers

/-- A drop that its initiator can put aside, and that ends after it is opened, is a matter of its
amount and the store. -/
theorem createDrop_reports {s : Store} {r : DropRequest} {author : String}
    (initiated : r.initiator = .text author) (named : IsName author)
    (summed : (s.held author none).units ≤ columnMax)
    (later : r.deadline.noLater r.openedAt = .ok false)
    (enough : ¬(s.view author none).available < r.amount) (fits : r.amount.units ≤ columnMax) :
    (createDrop r).Reports s [Fault.refusedIf (r.amount.units = 0) (.malformed .emptyDrop)] := by
  by_cases nothing : r.amount.units = 0
  · rw [Fault.refusedIf_pos nothing]
    refine Work.reports_of_fault rfl ?_ fun desk drop after _ h => ?_
    · unfold createDrop
      rw [if_pos nothing]
      exact (Work.failsOnly_refuse (P := (· = _)) rfl).bind fun _ _ _ _ h =>
        absurd h Work.gives_refuse
    · obtain ⟨_, _, _, _, _, creates, -⟩ := createDrop_gives.mp h
      exact creates.positive nothing
  · rw [Fault.refusedIf_neg nothing]
    have hstore (cause : StoreFault) : ∃ other, Fault.store cause = .store other := ⟨cause, rfl⟩
    refine Work.reports_of_passed rfl ?_
    unfold createDrop
    rw [if_neg nothing, later, initiated]
    refine Work.failsOnly_pure.bind fun desk early mid hs h => ?_
    obtain ⟨rfl, rfl⟩ := Work.gives_pure.mp h
    refine ⟨s, hs, Work.FailsOnly.bind (Work.failsOnly_of_gives fun desk hs => ⟨_, _,
      checkAvailable_gives.mpr ⟨s, author, hs, named, summed, enough, rfl, rfl⟩⟩)
      fun desk u mid hs h => ?_⟩
    obtain ⟨t, name, ht, -, -, -, -, rfl⟩ := checkAvailable_gives.mp h
    refine ⟨_, hs.keep _, Work.FailsOnly.bind (Work.FailsOnly.flushing ?_)
      fun desk drop mid hs h => ?_⟩
    · refine Work.failsOnly_freshId.bind fun desk id mid hs h => ?_
      obtain ⟨-, rfl⟩ := Work.gives_freshId.mp h
      refine ⟨_, hs.skip 1, (Work.failsOnly_stored (hstore _)).ask Work.reads_stored fun openedAt =>
        (Work.failsOnly_stored (hstore _)).ask Work.reads_stored fun deadline =>
        (Work.failsOnly_column fun large => absurd (natCast_fits.mpr fits) large).ask
          Work.reads_column fun _ => Work.failsOnly_tables.ask Work.reads_tables fun seen => ?_⟩
      split
      · exact (Work.failsOnly_storeFails (hstore _)).ask Work.reads_throw fun _ =>
          Work.FailsOnly.written Work.failsOnly_pure
      · exact Work.FailsOnly.written Work.failsOnly_pure
    · simp only [Work.gives_flushing, Work.gives_bind, Work.gives_guard_store, Work.gives_write,
        Work.gives_pure] at h
      obtain ⟨_, _, -, _, _, -, _, _, -, _, _, -, _, _, -, -, _, _, ⟨u, hu, rfl⟩, -, rfl⟩ := h
      exact ⟨_, hu.keep _, Work.failsOnly_note.ask Work.reads_note fun _ => Work.failsOnly_pure⟩

end Ledger
end TipJar
