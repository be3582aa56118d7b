import TipJar.Proofs.Orderly

/-! How work fails.

What work gives when it succeeds is known already. A unit of work that is not kept
has failed, and the program that asked for it goes on by the kind of failure: so
here it is said of each unit what it can fail with. Success is known step by step,
so a failure needs only one rule for each building block: work on some tables fails
with nothing but faults of a kind. -/
namespace TipJar
open Ledger

namespace Ledger
namespace Work

variable {α β : Type} {s : Store} {P Q : Fault → Prop}

/-- Whether work on some tables fails with nothing but faults of a kind. -/
def FailsOnly (work : Work α) (s : Store) (P : Fault → Prop) : Prop :=
  ∀ ⦃desk : Desk⦄, desk.Holds s → ∀ ⦃why : Fault⦄ ⦃after : Desk⦄,
    work desk = (.error why, after) → P why

theorem FailsOnly.imp {work : Work α} (h : work.FailsOnly s P) (himp : ∀ why, P why → Q why) :
    work.FailsOnly s Q := fun _ hs _ _ herror => himp _ (h hs herror)

/-- What always succeeds never fails. -/
theorem failsOnly_of_gives {work : Work α}
    (h : ∀ ⦃desk : Desk⦄, desk.Holds s → ∃ a after, work.Gives desk a after) :
    work.FailsOnly s P := by
  intro desk hs why after herror
  obtain ⟨a, left, hgives⟩ := h hs
  cases hgives.symm.trans herror

theorem failsOnly_pure {a : α} : (pure a : Work α).FailsOnly s P :=
  failsOnly_of_gives fun desk _ => ⟨a, desk, gives_pure.mpr ⟨rfl, rfl⟩⟩

theorem failsOnly_throw {why : Fault} (h : P why) : (throw why : Work α).FailsOnly s P := by
  intro desk _ other after herror
  injection herror with hwhy
  exact Except.error.inj hwhy ▸ h

theorem failsOnly_refuse {why : Refusal} (h : P (.refused why)) :
    (refuse why : Work α).FailsOnly s P := failsOnly_throw h

theorem failsOnly_storeFails {why : StoreFault} (h : P (.store why)) :
    (storeFails why : Work α).FailsOnly s P := failsOnly_throw h

/-- One piece of work after the other: what the first one fails with, and what the second one fails
with on the tables that the first one leaves. -/
theorem FailsOnly.bind {x : Work α} {f : α → Work β} (hx : x.FailsOnly s P)
    (hf : ∀ ⦃desk : Desk⦄ ⦃a : α⦄ ⦃mid : Desk⦄, desk.Holds s → x.Gives desk a mid →
      ∃ t, mid.Holds t ∧ (f a).FailsOnly t P) :
    (x >>= f).FailsOnly s P := by
  intro desk hs why after herror
  cases hdone : x desk with
  | mk result mid =>
    cases result with
    | ok a =>
      obtain ⟨t, ht, hnext⟩ := hf hs hdone
      exact hnext ht ((bind_of_ok hdone).symm.trans herror)
    | error other =>
      have hsame := (bind_of_error hdone).symm.trans herror
      injection hsame with hwhy
      exact Except.error.inj hwhy ▸ hx hs hdone

/-- Work that only reads, and what follows it. -/
theorem FailsOnly.ask {x : Work α} {f : α → Work β} (hx : x.FailsOnly s P) (reads : x.Reads)
    (hf : ∀ a, (f a).FailsOnly s P) : (x >>= f).FailsOnly s P :=
  hx.bind fun _ a _ hs h => ⟨s, reads hs h, hf a⟩

theorem failsOnly_check {x : Checked α} (h : ∀ why, x = .error why → P why) :
    (check x).FailsOnly s P := by
  cases x with
  | ok a => exact failsOnly_pure
  | error why => exact failsOnly_throw (h why rfl)

theorem failsOnly_tables : tables.FailsOnly s P :=
  failsOnly_of_gives fun desk hs => ⟨s, desk, gives_tables.mpr ⟨hs, rfl⟩⟩

theorem failsOnly_read {f : Store → α} : (read f).FailsOnly s P :=
  failsOnly_of_gives fun desk hs => ⟨f s, desk, gives_read.mpr ⟨s, hs, rfl, rfl⟩⟩

theorem failsOnly_write {f : Store → Store} : (write f).FailsOnly s P :=
  failsOnly_of_gives fun desk hs => ⟨⟨⟩, desk.keep (f s), gives_write.mpr ⟨s, hs, rfl⟩⟩

/-- A write, and what follows it on the tables it leaves. -/
theorem FailsOnly.written {f : Store → Store} {g : Unit → Work β} (h : (g ()).FailsOnly (f s) P) :
    (write f >>= g).FailsOnly s P := by
  refine failsOnly_write.bind fun desk u mid hs hgives => ?_
  obtain ⟨t, ht, rfl⟩ := gives_write.mp hgives
  obtain rfl := hs.unique ht
  exact ⟨f s, hs.keep _, h⟩

theorem failsOnly_freshId : freshId.FailsOnly s P :=
  failsOnly_of_gives fun desk _ => ⟨_, desk.skip 1, gives_freshId.mpr ⟨rfl, rfl⟩⟩

theorem failsOnly_now : now.FailsOnly s P :=
  failsOnly_of_gives fun desk _ => ⟨desk.now, desk, gives_now.mpr ⟨rfl, rfl⟩⟩

theorem reads_now : now.Reads := by
  intro desk s m after hs h
  obtain ⟨-, rfl⟩ := gives_now.mp h
  exact hs

theorem failsOnly_note {level : Log.Level} {part message : String}
    {fields : List (String × Value)} : (note level part message fields).FailsOnly s P :=
  failsOnly_of_gives fun _ _ => ⟨⟨⟩, _, gives_note.mpr rfl⟩

theorem failsOnly_column {n : Int}
    (h : ¬(-columnMax - 1 ≤ n ∧ n ≤ columnMax) → P (.beyond .stored)) :
    (column n).FailsOnly s P := by
  by_cases hfits : -columnMax - 1 ≤ n ∧ n ≤ columnMax
  · exact failsOnly_of_gives fun desk hs => ⟨⟨⟩, desk, gives_column.mpr ⟨⟨s, hs⟩, hfits, rfl⟩⟩
  · have hbeyond : columnMax < n ∨ n < -columnMax - 1 := by omega
    refine failsOnly_tables.ask reads_tables fun _ => ?_
    rw [if_pos hbeyond]
    exact failsOnly_throw (h hfits)

theorem failsOnly_stored {m : Moment} (h : P (.store .unwritable)) :
    (stored m).FailsOnly s P := by
  unfold stored
  split
  · exact failsOnly_pure
  · exact failsOnly_storeFails h

theorem FailsOnly.within {changes : List (Log.Field × String)} {work : Work α}
    (h : work.FailsOnly s P) : (within changes work).FailsOnly s P := by
  intro desk hs why after herror
  have hbegun : Desk.Holds { desk with context := desk.context.putAll changes } s :=
    ⟨hs.sound, hs.tables⟩
  unfold Work.within at herror
  injection herror with hwhy
  have hfailed : work { desk with context := desk.context.putAll changes } =
      (.error why, (work { desk with context := desk.context.putAll changes }).2) :=
    Prod.ext hwhy rfl
  exact h hbegun hfailed

theorem FailsOnly.flushing {work : Work α} (h : work.FailsOnly s P) :
    (flushing work).FailsOnly s P := by
  intro desk hs why after herror
  unfold Work.flushing at herror
  cases hdone : work desk with
  | mk result mid =>
    rw [hdone] at herror
    cases result with
    | ok a => cases herror
    | error other =>
      injection herror with hwhy
      exact Except.error.inj hwhy ▸ h hs hdone

/-- A loop fails with what a turn of it fails with. -/
theorem failsOnly_forIn {body : α → Work β} {xs : List α}
    (hbody : ∀ x ∈ xs, ∀ t, (body x).FailsOnly t P ∧
      ∀ ⦃desk : Desk⦄ ⦃b : β⦄ ⦃mid : Desk⦄, desk.Holds t → (body x).Gives desk b mid →
        ∃ u, mid.Holds u) :
    (forIn xs PUnit.unit fun a _ =>
      (body a >>= fun _ => pure (ForInStep.yield PUnit.unit))).FailsOnly s P := by
  induction xs generalizing s with
  | nil => exact failsOnly_pure
  | cons x xs ih =>
    rw [List.forIn_cons]
    obtain ⟨hfails, hleaves⟩ := hbody x List.mem_cons_self s
    refine (hfails.bind fun desk b mid hs h => ?_).bind fun desk step mid hs h => ?_
    · obtain ⟨t, ht⟩ := hleaves hs h
      exact ⟨t, ht, failsOnly_pure⟩
    · obtain ⟨b, left, hb, hstep⟩ := gives_bind.mp h
      obtain ⟨rfl, rfl⟩ := gives_pure.mp hstep
      obtain ⟨t, ht⟩ := hleaves hs hb
      exact ⟨t, ht, ih fun y hy => hbody y (List.mem_cons_of_mem _ hy)⟩

end Work

/-! ### Accounts -/

variable {s : Store}

theorem checkName_error {v : Value} {why : Refusal} (h : checkName v = .error why) :
    ∃ fault, why = .malformed fault := by
  unfold checkName at h
  split at h
  · split at h
    · exact ⟨_, (Except.error.inj h).symm⟩
    · split at h
      · exact ⟨_, (Except.error.inj h).symm⟩
      · cases h
  · exact ⟨_, (Except.error.inj h).symm⟩

theorem failsOnly_checkName {who : Value} {P : Fault → Prop}
    (h : ∀ why, checkName who = .error (.malformed why) → P (.refused (.malformed why))) :
    (Work.check ((checkName who).mapError Fault.refused)).FailsOnly s P := by
  refine Work.failsOnly_check fun why herror => ?_
  cases hname : checkName who with
  | ok name =>
    rw [hname] at herror
    cases herror
  | error refusal =>
    rw [hname] at herror
    obtain ⟨fault, rfl⟩ := checkName_error hname
    rw [← Except.error.inj herror]
    exact h fault hname

/-- Opening an account fails only where there is no name for it. -/
theorem ensure_failsOnly {who : Value} {P : Fault → Prop}
    (h : ∀ why, checkName who = .error (.malformed why) → P (.refused (.malformed why))) :
    (ensure who).FailsOnly s P := by
  refine (failsOnly_checkName h).ask Work.reads_check fun name => ?_
  refine Work.failsOnly_tables.ask Work.reads_tables fun t => ?_
  split
  · exact Work.failsOnly_pure
  · exact Work.FailsOnly.written Work.failsOnly_pure

theorem lock_failsOnly {names : List String} {P : Fault → Prop}
    (h : ∀ name ∈ names, ∀ why, checkName (.text name) = .error (.malformed why) →
      P (.refused (.malformed why))) :
    (lock names).FailsOnly s P := by
  have hopen : (forIn (lockOrder names) PUnit.unit fun name _ =>
      (ensure (.text name) >>= fun _ => pure (ForInStep.yield PUnit.unit))).FailsOnly s P := by
    refine Work.failsOnly_forIn fun name hname t => ⟨ensure_failsOnly fun why herror => ?_,
      fun desk b mid hs hgives => ?_⟩
    · exact h name (mem_lockOrder.mp hname) why herror
    · obtain ⟨_, _, _, _, _, rfl⟩ := ensure_gives.mp hgives
      exact ⟨_, hs.keep _⟩
  refine hopen.bind fun desk u mid hs hgives => ?_
  obtain ⟨-, rfl⟩ := (openEach_gives hs).mp hgives
  exact ⟨_, hs.keep _, Work.failsOnly_read⟩

theorem summed_failsOnly {sums : List Amount} {P : Fault → Prop}
    (h : (¬∀ sum ∈ sums, sum.units ≤ columnMax) → P (.store .overflowed)) :
    (summed sums).FailsOnly s P := by
  unfold summed
  split
  · exact Work.failsOnly_pure
  · next large => exact Work.failsOnly_storeFails (h large)

/-- The holds of an account can be read unless they outgrow a column together. -/
theorem heldBy_failsOnly {name : String} {except : Option Uuid} {P : Fault → Prop}
    (h : columnMax < (s.held name except).units → P (.store .overflowed)) :
    (heldBy (.text name) except).FailsOnly s P := by
  have hkey : lookupKey (.text name) = .ok (some name) := lookupKey_of_text rfl
  refine (Work.failsOnly_check fun why herror => by cases hkey.symm.trans herror).bind
    fun desk key mid hs hgives => ?_
  obtain ⟨hfound, rfl⟩ := Work.gives_check.mp hgives
  obtain rfl := Except.ok.inj (hkey.symm.trans hfound)
  refine ⟨s, hs, Work.failsOnly_read.bind fun desk held mid hs hgives => ?_⟩
  obtain ⟨t, ht, rfl, rfl⟩ := Work.gives_read.mp hgives
  obtain rfl := hs.unique ht
  refine ⟨s, hs, (summed_failsOnly fun large => h ?_).ask (reads_summed _) fun _ =>
    Work.failsOnly_pure⟩
  simpa using large

theorem viewOf_failsOnly {name : String} {except : Option Uuid} {P : Fault → Prop}
    (named : IsName name) (h : columnMax < (s.held name except).units → P (.store .overflowed)) :
    (viewOf (.text name) except).FailsOnly s P := by
  have hensure : (ensure (.text name)).FailsOnly s P :=
    ensure_failsOnly fun why herror => by cases named.symm.trans herror
  refine hensure.bind fun desk account mid hs hgives => ?_
  obtain ⟨t, other, ht, hname, -, rfl⟩ := ensure_gives.mp hgives
  obtain rfl := hs.unique ht
  refine ⟨_, hs.keep _, (heldBy_failsOnly fun large => h ?_).bind fun desk held mid hs hgives => ?_⟩
  · rwa [Store.held_congr name except (s.drops_withAccount other)] at large
  · obtain ⟨u, hu, -, -, rfl⟩ := (heldBy_gives rfl).mp hgives
    exact ⟨u, hu, Work.failsOnly_pure⟩

/-- What debiting a sum fails with, and when. A sum that no column can hold fails before it is
compared with what can be spent, and so do holds. -/
inductive Denial (s : Store) (source : String) (destinations : List String) (total : Amount)
    (except : Option Uuid) : Fault → Prop
  | nobody (none : destinations = []) :
      Denial s source destinations total except (.refused (.malformed .noCredits))
  | unnamed {name : String} (why : Malformed) (party : name ∈ source :: destinations)
      (unnamed : ¬IsName name) :
      Denial s source destinations total except (.refused (.malformed why))
  | oversized (large : columnMax < total.units) :
      Denial s source destinations total except (.beyond .stored)
  | overflowed (fits : total.units ≤ columnMax)
      (large : columnMax < (s.held source except).units) :
      Denial s source destinations total except (.store .overflowed)
  | uncovered (fits : total.units ≤ columnMax) (summed : (s.held source except).units ≤ columnMax)
      (short : ¬s.Covers source except total) :
      Denial s source destinations total except
        (.refused (.insufficientFunds source total (s.view source except).available))

/-- What is seen of an account does not change when others are opened. -/
theorem view_opened (s : Store) (names : List String) (name : String) (except : Option Uuid) :
    (s.opened names).view name except = s.view name except := by
  unfold Store.view
  rw [Store.balance_opened, Store.held_congr name except (s.drops_opened names)]

/-- Checking the destinations of some credits fails only where one of them is no name. -/
theorem checkEach_failsOnly {credits : List (String × Amount)} {P : Fault → Prop}
    (h : ∀ name ∈ credits.map (·.1), ∀ why, checkName (.text name) = .error (.malformed why) →
      P (.refused (.malformed why))) :
    (forIn credits PUnit.unit fun c _ =>
      (Work.check ((checkName (.text c.1)).mapError Fault.refused) >>= fun _ =>
        pure (ForInStep.yield PUnit.unit))).FailsOnly s P :=
  Work.failsOnly_forIn fun _ hc t =>
    ⟨failsOnly_checkName (h _ (List.mem_map_of_mem hc)),
      fun _ _ _ hs h => ⟨t, Work.reads_check hs h⟩⟩

theorem debitAndCredit_failsOnly {source : String} {credits : List (String × Amount)}
    {except : Option Uuid} :
    (debitAndCredit source credits except).FailsOnly s
      (Denial s source (credits.map (·.1)) (.sum ((gather credits).map (·.2))) except) := by
  have hchecked : (forIn credits PUnit.unit fun c _ =>
      (Work.check ((checkName (.text c.1)).mapError Fault.refused) >>= fun _ =>
        pure (ForInStep.yield PUnit.unit))).FailsOnly s
          (Denial s source (credits.map (·.1)) (.sum ((gather credits).map (·.2))) except) :=
    checkEach_failsOnly fun name hname why herror =>
      .unnamed why (List.mem_cons_of_mem _ hname) fun named => by cases named.symm.trans herror
  have hcredited (t : Store) : (forIn (gather credits) PUnit.unit fun c _ =>
      (Work.write (·.credit c.1 c.2) >>= fun _ => pure (ForInStep.yield PUnit.unit))).FailsOnly t
        (Denial s source (credits.map (·.1)) (.sum ((gather credits).map (·.2))) except) := by
    refine Work.failsOnly_forIn fun c _ t => ⟨Work.failsOnly_write, fun desk b mid hs h => ?_⟩
    obtain ⟨_, _, rfl⟩ := Work.gives_write.mp h
    exact ⟨_, hs.keep _⟩
  unfold debitAndCredit
  split
  · next empty =>
    refine (Work.failsOnly_refuse (.nobody ?_)).bind fun _ _ _ _ h => absurd h Work.gives_refuse
    rw [List.isEmpty_iff.mp empty]
    rfl
  · refine hchecked.bind fun desk u mid hs h => ?_
    obtain ⟨-, rfl⟩ := Work.gives_forIn_check.mp h
    refine ⟨s, hs, (lock_failsOnly fun name hname why herror =>
      .unnamed why (mem_parties_gather.mp hname) fun named => by
        cases named.symm.trans herror).bind
        fun desk accounts mid hs h => ?_⟩
    obtain ⟨t, ht, named, _, rfl⟩ := lock_gives.mp h
    obtain rfl := hs.unique ht
    refine ⟨_, hs.keep _, (Work.failsOnly_column fun hlarge => .oversized ?large).bind
      fun desk u mid hs h => ?_⟩
    case large => exact Int.not_le.mp (mt natCast_fits.mpr hlarge)
    obtain ⟨-, ⟨-, fits⟩, rfl⟩ := Work.gives_column.mp h
    refine ⟨_, hs, Work.failsOnly_tables.bind fun desk seen mid hs h => ?_⟩
    obtain ⟨hseen, rfl⟩ := Work.gives_tables.mp h
    obtain rfl := hs.unique hseen
    refine ⟨_, hs, (summed_failsOnly fun large => .overflowed fits ?held).bind
      fun desk u mid hs h => ?_⟩
    case held => simpa [Store.held_opened] using large
    obtain ⟨summed, rfl⟩ := summed_gives.mp h
    rw [List.forall_mem_singleton, Store.held_opened] at summed
    refine ⟨_, hs, ?_⟩
    split
    · refine Work.FailsOnly.written ((hcredited _).bind fun desk u mid hs h => ?_)
      rw [← (Work.gives_forIn_write hs).mp h]
      exact ⟨_, hs.keep _, Work.failsOnly_pure⟩
    · next short =>
      have hsource : IsName source := named source List.mem_cons_self
      refine (viewOf_failsOnly hsource fun large => ?_).bind fun desk view mid hs h => ?_
      · rw [Store.held_opened] at large
        exact absurd summed (Int.not_le.mpr large)
      obtain ⟨t, name, ht, hname, -, rfl, rfl⟩ := viewOf_gives.mp h
      obtain rfl := hs.unique ht
      obtain rfl := Except.ok.inj (hsource.symm.trans hname)
      refine ⟨_, hs.keep _, Work.failsOnly_note.ask Work.reads_note fun _ => ?_⟩
      rw [view_opened]
      exact Work.failsOnly_refuse (.uncovered fits summed (mt (s.covers_opened _ _ _ _).mpr short))

/-! ### Transfers -/

theorem record_failsOnly {event : Uuid} {i : Transfer.Intent} {share : Amount} {time : Moment}
    {P : Fault → Prop} (h : ∀ why, P (.store why)) : (record event i share time).FailsOnly s P := by
  have hstamp : (i.destinations.mapM fun destination => do
      return (destination, ← Work.freshId)).FailsOnly s P :=
    Work.failsOnly_of_gives fun desk _ => ⟨_, _, stamp_gives.mpr ⟨rfl, rfl⟩⟩
  refine Work.FailsOnly.flushing (hstamp.bind fun desk ids mid hs hgives => ?_)
  obtain ⟨-, rfl⟩ := stamp_gives.mp hgives
  refine ⟨s, hs.skip _, (Work.failsOnly_stored (h _)).ask Work.reads_stored fun utc =>
    Work.failsOnly_tables.ask Work.reads_tables fun t => ?_⟩
  split
  · exact (Work.failsOnly_storeFails (h _)).ask Work.reads_throw fun _ => Work.failsOnly_write
  · exact Work.failsOnly_write

/-- What a transfer fails with, and when: it is improper, its sum cannot be debited, or its entries
cannot be written. -/
inductive TransferFault (s : Store) (i : Transfer.Intent) (minimum : Amount)
    (except : Option Uuid) : Fault → Prop
  | improper {why : Refusal} (improper : i.check minimum = .error why) :
      TransferFault s i minimum except (.refused why)
  | denied {why : Fault} (proper : i.check minimum = .ok ())
      (denial : Denial s i.source i.destinations i.split.moved except why) :
      TransferFault s i minimum except why
  | unrecorded (why : StoreFault)
      (covered : s.Covers i.source except i.split.moved) :
      TransferFault s i minimum except (.store why)

theorem execute_failsOnly {i : Transfer.Intent} {minimum : Amount} {except : Option Uuid} :
    (execute i minimum except).FailsOnly s (TransferFault s i minimum except) := by
  have hchecked : (Work.check ((i.check minimum).mapError Fault.refused)).FailsOnly s
      (TransferFault s i minimum except) := by
    refine Work.failsOnly_check fun why h => ?_
    cases hcheck : i.check minimum with
    | ok u =>
      rw [hcheck] at h
      cases h
    | error refusal =>
      rw [hcheck] at h
      rw [← Except.error.inj h]
      exact .improper hcheck
  refine hchecked.bind fun desk u mid hs h => ?_
  obtain ⟨hcheck, rfl⟩ := Work.gives_check.mp h
  have hproper : i.check minimum = .ok () := checked_refused.mp hcheck
  -- Proper destinations are all different, so what is debited is what moves.
  have hmoved : Amount.sum ((gather i.credits).map (·.2)) = i.split.moved := by
    rw [gather_credits hproper, Transfer.Intent.sum_credits]
  have hdebit : (debitAndCredit i.source i.credits except).FailsOnly s
      (TransferFault s i minimum except) := by
    refine debitAndCredit_failsOnly.imp fun why denial => ?_
    rw [hmoved, Transfer.Intent.map_fst_credits] at denial
    exact .denied hproper denial
  refine ⟨s, hs, Work.failsOnly_freshId.bind fun desk event mid hs h => ?_⟩
  obtain ⟨-, rfl⟩ := Work.gives_freshId.mp h
  refine ⟨s, hs.skip 1, Work.failsOnly_now.ask Work.reads_now fun time => ?_⟩
  refine Work.FailsOnly.within (hdebit.bind fun desk total mid hs h => ?_)
  obtain ⟨t, ht, _, _, hsum, _, _, hcovered, rfl⟩ := debitAndCredit_gives.mp h
  obtain rfl := hs.unique ht
  rw [← hsum, hmoved] at hcovered
  refine ⟨_, hs.keep _, (record_failsOnly fun why => .unrecorded why hcovered).bind
    fun desk u mid hs h => ?_⟩
  obtain ⟨_, _, hs, _, _, rfl⟩ := record_gives.mp h
  exact ⟨_, (hs.keep _).skip _, Work.failsOnly_note.ask Work.reads_note fun _ =>
    Work.failsOnly_pure⟩

/-! ### Drops -/

/-- What a transition of a drop can fail with, and a number that is written along with it. -/
inductive TransitionFault (s : Store) (id : Uuid) (expected : Drop.Status) (written : Option Int) :
    Fault → Prop
  | missing (absent : s.drop? id = none) :
      TransitionFault s id expected written (.refused (.dropNotFound id))
  | elsewhere {row : Drop} (found : s.drop? id = some row) (elsewhere : row.has expected = false) :
      TransitionFault s id expected written
        (.refused (.alreadySettled id (row.status.text (·.text))))
  | oversized {n : Int} (given : written = some n)
      (large : ¬(-columnMax - 1 ≤ n ∧ n ≤ columnMax)) :
      TransitionFault s id expected written (.beyond .stored)
  | store (why : StoreFault) : TransitionFault s id expected written (.store why)

section Transitions
variable {id : Uuid} {time : Moment}

theorem transition_failsOnly {expected : Drop.Status} {change : Drop → Drop}
    {written : Option Int} :
    (transition id expected change).FailsOnly s (TransitionFault s id expected written) := by
  refine Work.failsOnly_tables.bind fun desk t mid hs h => ?_
  obtain ⟨ht, rfl⟩ := Work.gives_tables.mp h
  obtain rfl := hs.unique ht
  refine ⟨s, hs, ?_⟩
  cases hrow : s.drop? id with
  | none => exact Work.failsOnly_refuse (.missing hrow)
  | some row =>
    dsimp only
    split
    · exact Work.FailsOnly.written Work.failsOnly_pure
    · next h => exact Work.failsOnly_refuse (.elsewhere hrow (Bool.eq_false_iff.mpr h))

theorem claim_failsOnly :
    (claim id time).FailsOnly s (TransitionFault s id .pending none) :=
  (Work.failsOnly_stored (.store _)).ask Work.reads_stored fun _ => transition_failsOnly

theorem markExpired_failsOnly :
    (markExpired id time).FailsOnly s (TransitionFault s id .settling none) :=
  (Work.failsOnly_stored (.store _)).ask Work.reads_stored fun _ => transition_failsOnly

theorem markFailed_failsOnly {reason : String} {participants : Option Int} :
    (markFailed id reason time participants).FailsOnly s
      (TransitionFault s id .settling participants) := by
  refine (Work.failsOnly_stored (.store _)).ask Work.reads_stored fun _ => ?_
  cases participants with
  | none => exact transition_failsOnly
  | some n =>
    exact (Work.failsOnly_column (.oversized rfl)).ask Work.reads_column fun _ =>
      transition_failsOnly

theorem markSettled_failsOnly {event : Uuid} {recipients : Nat} {moved : Amount} :
    (markSettled id event recipients moved time).FailsOnly s
      (TransitionFault s id .settling (some moved.units)) :=
  (Work.failsOnly_stored (.store _)).ask Work.reads_stored fun _ =>
    (Work.failsOnly_column (.oversized rfl)).ask Work.reads_column fun _ => transition_failsOnly

end Transitions

/-- What is known of a drop is read from drops alone. -/
theorem TransitionFault.congr {s t : Store} {id : Uuid} {expected : Drop.Status}
    {written : Option Int} {why : Fault} (same : t.drops = s.drops)
    (h : TransitionFault t id expected written why) :
    TransitionFault s id expected written why := by
  have hdrop := Store.drop?_congr id same
  cases h with
  | missing absent => exact .missing (hdrop ▸ absent)
  | elsewhere found elsewhere => exact .elsewhere (hdrop ▸ found) elsewhere
  | oversized given large => exact .oversized given large
  | store why => exact .store why

/-- A drop that is where it should be is refused only for the number that is written along. -/
theorem TransitionFault.of_there {s : Store} {id : Uuid} {expected : Drop.Status}
    {written : Option Int} {why : Fault} {row : Drop}
    (h : TransitionFault s id expected written why) (found : s.drop? id = some row)
    (there : row.has expected = true) (kind : ∀ cause, why ≠ .store cause) :
    why = .beyond .stored ∧ ∃ n, written = some n ∧ ¬(-columnMax - 1 ≤ n ∧ n ≤ columnMax) := by
  cases h with
  | missing absent => cases found.symm.trans absent
  | elsewhere other elsewhere =>
    obtain rfl := Option.some.inj (found.symm.trans other)
    cases there.symm.trans elsewhere
  | oversized given large => exact ⟨rfl, _, given, large⟩
  | store cause => exact absurd rfl (kind cause)

/-- A payout fails as its transfer does, or because the drop is not settling. -/
theorem payOut_failsOnly {sweeper : Sweeper} (hexecute : sweeper.execute = execute) {d : Drop}
    {participants : List String} :
    (sweeper.payOut d participants).FailsOnly s fun why =>
      TransferFault s (d.payment participants) sweeper.minimum (some d.id) why ∨
        TransitionFault s d.id .settling (some (d.payment participants).split.moved.units) why := by
  unfold Sweeper.payOut
  rw [hexecute]
  refine (execute_failsOnly.imp fun _ => .inl).bind fun desk receipt mid hs h => ?_
  obtain ⟨t, utc, ht, -, rfl, rfl⟩ := execute_gives.mp h
  obtain rfl := hs.unique ht
  refine ⟨_, hs.afterTransfer _ _, (markSettled_failsOnly.imp fun why fault =>
    .inr (fault.congr (Store.drops_transferred _ _))).bind fun desk row mid hs h => ?_⟩
  obtain ⟨_, _, _, _, _, ht, _, _, _, rfl⟩ := markSettled_gives.mp h
  exact ⟨_, ht.keep _, Work.failsOnly_pure⟩

end Ledger

/-! ### Units -/

/-- What a unit of work is not kept for: its work fails, or a write in it was refused. -/
theorem Ledger.Desk.commit_error {α : Type} {work : Work α} {desk after : Desk} {why : Fault}
    (h : desk.commit work = (.error why, after)) :
    (∃ mid, work { desk with spoiled := false } = (.error why, mid)) ∨ why = .store .spoiled := by
  unfold commit at h
  split at h
  · split at h
    · injection h with hwhy
      exact .inr (Except.error.inj hwhy).symm
    · cases h
  · next other mid hdone =>
    injection h with hwhy
    rw [Except.error.inj hwhy] at hdone
    exact .inl ⟨mid, hdone⟩

/-- A unit of work whose work fails is undone. -/
theorem Ledger.Desk.commit_of_error {α : Type} {work : Work α} {desk mid : Desk} {why : Fault}
    (h : work { desk with spoiled := false } = (.error why, mid)) :
    ∃ after, desk.commit work = (.error why, after) ∧ after.tables = desk.tables := by
  unfold commit
  rw [h]
  exact ⟨_, rfl, rfl⟩

/-- A unit of work that is not kept has failed as its work does, or the store has. -/
theorem State.transact_begun_error {σ : State} {α : Type} {operation : String} {work : Work α}
    {desk after : Desk} {why : Fault} {P : Fault → Prop} (h : work.FailsOnly σ.store P)
    (hundone : (σ.begun desk).transact operation work = (.error why, after)) :
    (∃ cause, why = .refused (.unsaved operation cause)) ∨
      (P why ∧ ∀ cause, why ≠ .store cause) := by
  unfold Desk.transact at hundone
  split at hundone
  · injection hundone with hwhy
    exact .inl ⟨_, (Except.error.inj hwhy).symm⟩
  · next hother =>
    have hkind : ∀ cause, why ≠ .store cause := by
      rintro cause rfl
      exact hother cause after hundone
    rcases Desk.commit_error hundone with ⟨mid, hwork⟩ | hspoiled
    · exact .inr ⟨h (σ.holds_begun desk) hwork, hkind⟩
    · exact absurd hspoiled (hkind _)

/-- What is reported of work that fails: a failure of the store goes under the name of the
operation. -/
def Fault.reported (operation : String) : Fault → Fault
  | .store cause => .refused (.unsaved operation cause)
  | why => why

/-- A unit of work that cannot succeed is undone for one of its reasons. -/
theorem State.transact_begun_reports {σ : State} {α : Type} {work : Work α} {desk : Desk}
    {P : Fault → Prop} (h : work.FailsOnly σ.store P)
    (never : ∀ a after, ¬work.Gives (σ.begun desk) a after) (operation : String) :
    ∃ why after,
      (σ.begun desk).transact operation work = (.error (why.reported operation), after) ∧ P why := by
  rcases hdone : work (σ.begun desk) with ⟨_ | _, mid⟩
  case ok => exact absurd hdone (never _ _)
  case error why =>
    refine ⟨why, ?_⟩
    unfold Desk.transact Desk.commit
    rw [show { σ.begun desk with spoiled := false } = σ.begun desk from rfl, hdone]
    cases why <;> exact ⟨_, rfl, h (σ.holds_begun desk) hdone⟩

/-- Reasons that are not the store's are reported as they are. -/
theorem State.transact_begun_fails {σ : State} {α : Type} {work : Work α} {desk : Desk}
    {P : Fault → Prop} (h : work.FailsOnly σ.store P)
    (never : ∀ a after, ¬work.Gives (σ.begun desk) a after) (sound : ∀ cause, ¬P (.store cause))
    (operation : String) :
    ∃ why after, (σ.begun desk).transact operation work = (.error why, after) ∧ P why := by
  obtain ⟨why, after, hdone, hwhy⟩ := transact_begun_reports h never operation
  have hsame : why.reported operation = why := by
    cases why with
    | store cause => exact absurd hwhy (sound cause)
    | _ => rfl
  exact ⟨why, after, hsame ▸ hdone, hwhy⟩

end TipJar
