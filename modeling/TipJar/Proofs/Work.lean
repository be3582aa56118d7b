import Mathlib.Logic.Relation
import TipJar.Ledger.Work

/-! When work succeeds.

A piece of work is a function from the desk it is begun at to its result and the
desk it leaves. `Gives` is the half of that function that units of work are kept
for: the work succeeds, gives a value and leaves a desk. Every building block has
one lemma here that says when it gives what, so that a piece of work is opened by
rewriting and its definition is read step by step; nothing after this module
unfolds the monad. -/
namespace TipJar

/-- A moment goes into a column as its reading in universal time; one without an offset has none. -/
def Moment.IsStoredAs (m utc : Moment) : Prop := m.isNaive = false ∧ m.toUtc? = some utc

namespace Ledger

/-- A count fits a column unless it is too large. -/
theorem natCast_fits {n : Nat} :
    -columnMax - 1 ≤ (n : Int) ∧ (n : Int) ≤ columnMax ↔ (n : Int) ≤ columnMax := by
  have : (0 : Int) ≤ columnMax := by decide
  omega

/-! ### Desks -/

/-- Work can be done at the desk, on these tables. -/
structure Desk.Holds (desk : Desk) (s : Store) : Prop where
  sound : desk.spoiled = false
  tables : desk.tables = some s

/-- The desk with other tables. -/
def Desk.keep (desk : Desk) (s : Store) : Desk := { desk with tables := some s }

/-- The desk after so many identifiers have been handed out. -/
def Desk.skip (desk : Desk) (count : Nat) : Desk := { desk with nextId := desk.nextId + count }

namespace Desk

@[simp] theorem tables_keep (desk : Desk) (s : Store) : (desk.keep s).tables = some s := rfl
@[simp] theorem spoiled_keep (desk : Desk) (s : Store) : (desk.keep s).spoiled = desk.spoiled := rfl
@[simp] theorem now_keep (desk : Desk) (s : Store) : (desk.keep s).now = desk.now := rfl
@[simp] theorem ids_keep (desk : Desk) (s : Store) : (desk.keep s).ids = desk.ids := rfl
@[simp] theorem nextId_keep (desk : Desk) (s : Store) : (desk.keep s).nextId = desk.nextId := rfl
@[simp] theorem keep_keep (desk : Desk) (s t : Store) : (desk.keep s).keep t = desk.keep t := rfl

@[simp] theorem tables_skip (desk : Desk) (n : Nat) : (desk.skip n).tables = desk.tables := rfl
@[simp] theorem spoiled_skip (desk : Desk) (n : Nat) : (desk.skip n).spoiled = desk.spoiled := rfl
@[simp] theorem now_skip (desk : Desk) (n : Nat) : (desk.skip n).now = desk.now := rfl
@[simp] theorem ids_skip (desk : Desk) (n : Nat) : (desk.skip n).ids = desk.ids := rfl
@[simp] theorem nextId_skip (desk : Desk) (n : Nat) :
    (desk.skip n).nextId = desk.nextId + n := rfl
@[simp] theorem skip_skip (desk : Desk) (m n : Nat) :
    (desk.skip m).skip n = desk.skip (m + n) := by
  simp only [skip, Nat.add_assoc]

theorem Holds.keep_self {desk : Desk} {s : Store} (h : desk.Holds s) : desk.keep s = desk := by
  cases desk
  cases h
  simp_all [keep]

theorem Holds.keep {desk : Desk} {s : Store} (h : desk.Holds s) (t : Store) :
    (desk.keep t).Holds t := ⟨h.sound, rfl⟩

theorem Holds.skip {desk : Desk} {s : Store} (h : desk.Holds s) (n : Nat) :
    (desk.skip n).Holds s := ⟨h.sound, h.tables⟩

/-- A desk holds only one set of tables. -/
theorem Holds.unique {desk : Desk} {s t : Store} (hs : desk.Holds s) (ht : desk.Holds t) :
    s = t := by
  have h := hs.tables
  rw [ht.tables] at h
  exact (Option.some.inj h).symm

section Note
variable (desk : Desk) (level : Log.Level) (part message : String)
  (fields : List (String × Value)) (failure : Option Failure)

/-- A line changes nothing but the lines. -/
theorem note_eq : ∃ lines, desk.note level part message fields failure = { desk with lines } := by
  unfold note
  split
  · exact ⟨desk.lines, rfl⟩
  · exact ⟨_, rfl⟩

@[simp] theorem tables_note :
    (desk.note level part message fields failure).tables = desk.tables := by
  obtain ⟨lines, h⟩ := desk.note_eq level part message fields failure
  rw [h]

@[simp] theorem spoiled_note :
    (desk.note level part message fields failure).spoiled = desk.spoiled := by
  obtain ⟨lines, h⟩ := desk.note_eq level part message fields failure
  rw [h]

variable {desk} in
theorem Holds.note {s : Store} (h : desk.Holds s) :
    (desk.note level part message fields failure).Holds s :=
  ⟨(desk.spoiled_note ..).trans h.sound, (desk.tables_note ..).trans h.tables⟩

end Note
end Desk

/-! ### Building blocks -/

namespace Work
variable {α β : Type}

/-- Work that succeeds at a desk: what it gives, and the desk it leaves. -/
def Gives (work : Work α) (desk : Desk) (a : α) (after : Desk) : Prop :=
  work desk = (.ok a, after)

/-- Work succeeds in one way only. -/
theorem Gives.unique {work : Work α} {desk : Desk} {a b : α} {after other : Desk}
    (ha : work.Gives desk a after) (hb : work.Gives desk b other) : a = b ∧ after = other := by
  have h := ha.symm.trans hb
  injection h with hresult hdesk
  exact ⟨Except.ok.inj hresult, hdesk⟩

@[simp] theorem gives_pure {a b : α} {desk after : Desk} :
    (pure a : Work α).Gives desk b after ↔ a = b ∧ desk = after := by
  constructor
  · intro h
    injection h with hresult hdesk
    exact ⟨Except.ok.inj hresult, hdesk⟩
  · intro h
    obtain ⟨rfl, rfl⟩ := h
    rfl

/-- Work that succeeds hands what it gives to the work behind it. -/
theorem bind_of_ok {x : Work α} {f : α → Work β} {desk mid : Desk} {a : α}
    (h : x desk = (.ok a, mid)) : (x >>= f) desk = f a mid := by
  show ExceptT.bindCont f (x desk).1 (x desk).2 = f a mid
  rw [h]
  rfl

/-- Work that fails is the end of it. -/
theorem bind_of_error {x : Work α} {f : α → Work β} {desk mid : Desk} {why : Fault}
    (h : x desk = (.error why, mid)) : (x >>= f) desk = (.error why, mid) := by
  show ExceptT.bindCont f (x desk).1 (x desk).2 = (.error why, mid)
  rw [h]
  rfl

theorem gives_bind {x : Work α} {f : α → Work β} {desk after : Desk} {b : β} :
    (x >>= f).Gives desk b after ↔ ∃ a mid, x.Gives desk a mid ∧ (f a).Gives mid b after := by
  constructor
  · intro h
    cases hx : x desk with
    | mk result mid =>
      cases result with
      | ok a => exact ⟨a, mid, hx, (bind_of_ok hx).symm.trans h⟩
      | error why => cases (bind_of_error hx).symm.trans h
  · intro h
    obtain ⟨a, mid, hx, hf⟩ := h
    exact (bind_of_ok hx).trans hf

@[simp] theorem gives_throw {why : Fault} {desk after : Desk} {a : α} :
    ¬(throw why : Work α).Gives desk a after := nofun

@[simp] theorem gives_refuse {why : Refusal} {desk after : Desk} {a : α} :
    ¬(refuse why : Work α).Gives desk a after := gives_throw

@[simp] theorem gives_storeFails {why : StoreFault} {desk after : Desk} {a : α} :
    ¬(storeFails why : Work α).Gives desk a after := gives_throw

theorem gives_ite {c : Prop} [Decidable c] {x y : Work α} {desk after : Desk} {a : α} :
    (if c then x else y).Gives desk a after ↔
      (c ∧ x.Gives desk a after) ∨ (¬c ∧ y.Gives desk a after) := by
  by_cases h : c <;> simp [h]

@[simp] theorem gives_check {x : Checked α} {desk after : Desk} {a : α} :
    (check x).Gives desk a after ↔ x = .ok a ∧ desk = after := by
  cases x with
  | ok b => simp [check]
  | error why => simp [check]

@[simp] theorem gives_get {desk seen after : Desk} :
    (getThe Desk : Work Desk).Gives desk seen after ↔ desk = seen ∧ desk = after := by
  constructor
  · intro h
    injection h with hresult hdesk
    exact ⟨Except.ok.inj hresult, hdesk⟩
  · intro h
    obtain ⟨rfl, rfl⟩ := h
    rfl

@[simp] theorem gives_modify {f : Desk → Desk} {u : Unit} {desk after : Desk} :
    (modifyThe Desk f : Work Unit).Gives desk u after ↔ f desk = after := by
  constructor
  · intro h
    injection h
  · intro h
    rw [← h]
    rfl

@[simp] theorem gives_set {d : Desk} {u : PUnit} {desk after : Desk} :
    (set d : Work PUnit).Gives desk u after ↔ d = after := by
  constructor
  · intro h
    injection h
  · intro h
    rw [← h]
    rfl

/-- What follows a refusal is never reached, so a check in front of some work is a condition on
it. -/
theorem gives_guard {c : Prop} [Decidable c] {why : Refusal} {f : α → Work β} {x : Work β}
    {desk after : Desk} {b : β} :
    (if c then refuse why >>= f else x).Gives desk b after ↔ ¬c ∧ x.Gives desk b after := by
  simp [gives_ite, gives_bind]

theorem gives_guard_store {c : Prop} [Decidable c] {why : StoreFault} {f : α → Work β} {x : Work β}
    {desk after : Desk} {b : β} :
    (if c then storeFails why >>= f else x).Gives desk b after ↔ ¬c ∧ x.Gives desk b after := by
  simp [gives_ite, gives_bind]

theorem gives_tables {desk after : Desk} {s : Store} :
    tables.Gives desk s after ↔ desk.Holds s ∧ desk = after := by
  unfold tables
  rw [gives_bind]
  simp only [gives_get, gives_guard_store]
  constructor
  · intro h
    obtain ⟨_, _, ⟨rfl, rfl⟩, hsound, h⟩ := h
    cases ht : desk.tables with
    | none => simp [ht] at h
    | some t =>
      rw [ht] at h
      obtain ⟨rfl, rfl⟩ := gives_pure.mp h
      exact ⟨⟨by simpa using hsound, ht⟩, rfl⟩
  · intro h
    obtain ⟨h, rfl⟩ := h
    refine ⟨desk, desk, ⟨rfl, rfl⟩, by simp [h.sound], ?_⟩
    rw [h.tables]
    exact gives_pure.mpr ⟨rfl, rfl⟩

theorem gives_read {f : Store → α} {desk after : Desk} {a : α} :
    (read f).Gives desk a after ↔ ∃ s, desk.Holds s ∧ f s = a ∧ desk = after := by
  unfold read
  rw [gives_bind]
  simp only [gives_tables, gives_pure]
  constructor
  · intro h
    obtain ⟨s, _, ⟨hs, rfl⟩, ha, rfl⟩ := h
    exact ⟨s, hs, ha, rfl⟩
  · intro h
    obtain ⟨s, hs, ha, rfl⟩ := h
    exact ⟨s, desk, ⟨hs, rfl⟩, ha, rfl⟩

theorem gives_write {f : Store → Store} {u : Unit} {desk after : Desk} :
    (write f).Gives desk u after ↔ ∃ s, desk.Holds s ∧ desk.keep (f s) = after := by
  unfold write
  rw [gives_bind]
  simp only [gives_tables, gives_modify]
  constructor
  · intro h
    obtain ⟨s, _, ⟨hs, rfl⟩, h⟩ := h
    exact ⟨s, hs, h⟩
  · intro h
    obtain ⟨s, hs, h⟩ := h
    exact ⟨s, desk, ⟨hs, rfl⟩, h⟩

theorem gives_freshId {desk after : Desk} {id : Uuid} :
    freshId.Gives desk id after ↔ desk.ids desk.nextId = id ∧ desk.skip 1 = after := by
  unfold freshId
  simp only [gives_bind, gives_get, gives_set, gives_pure]
  constructor
  · intro h
    obtain ⟨_, _, ⟨rfl, rfl⟩, _, _, rfl, hid, rfl⟩ := h
    exact ⟨hid, rfl⟩
  · intro h
    obtain ⟨hid, rfl⟩ := h
    exact ⟨desk, desk, ⟨rfl, rfl⟩, ⟨⟩, _, rfl, hid, rfl⟩

theorem gives_now {desk after : Desk} {m : Moment} :
    now.Gives desk m after ↔ desk.now = m ∧ desk = after := by
  unfold now
  simp only [gives_bind, gives_get, gives_pure]
  constructor
  · intro h
    obtain ⟨_, _, ⟨rfl, rfl⟩, hm, rfl⟩ := h
    exact ⟨hm, rfl⟩
  · intro h
    obtain ⟨hm, rfl⟩ := h
    exact ⟨desk, desk, ⟨rfl, rfl⟩, hm, rfl⟩

theorem gives_note {level : Log.Level} {part message : String} {fields : List (String × Value)}
    {u : Unit} {desk after : Desk} :
    (note level part message fields).Gives desk u after ↔
      desk.note level part message fields none = after := gives_modify

theorem gives_column {n : Int} {u : Unit} {desk after : Desk} :
    (column n).Gives desk u after ↔
      (∃ s, desk.Holds s) ∧ (-columnMax - 1 ≤ n ∧ n ≤ columnMax) ∧ desk = after := by
  unfold column
  simp only [gives_bind, gives_tables, gives_ite, gives_throw, and_false, false_or, gives_pure,
    true_and]
  constructor
  · intro h
    obtain ⟨s, _, ⟨hs, rfl⟩, hn, rfl⟩ := h
    exact ⟨⟨s, hs⟩, by omega, rfl⟩
  · intro h
    obtain ⟨⟨s, hs⟩, hn, rfl⟩ := h
    exact ⟨s, desk, ⟨hs, rfl⟩, by omega, rfl⟩

theorem gives_stored {m utc : Moment} {desk after : Desk} :
    (stored m).Gives desk utc after ↔ m.IsStoredAs utc ∧ desk = after := by
  unfold stored Moment.IsStoredAs
  cases hn : m.isNaive with
  | true => simp
  | false =>
    cases hu : m.toUtc? with
    | none => simp
    | some u => simp

theorem gives_within {changes : List (Log.Field × String)} {work : Work α} {desk after : Desk}
    {a : α} :
    (within changes work).Gives desk a after ↔
      ∃ mid, work.Gives { desk with context := desk.context.putAll changes } a mid ∧
        { mid with context := mid.context.restore desk.context (changes.map (·.1)) } = after := by
  unfold Gives within
  rcases work { desk with context := desk.context.putAll changes } with ⟨result, mid⟩
  constructor
  · intro h
    injection h with hresult hdesk
    exact ⟨mid, by rw [hresult], hdesk⟩
  · intro h
    obtain ⟨mid', h, rfl⟩ := h
    injection h with hresult hdesk
    rw [hresult, hdesk]

theorem gives_flushing {work : Work α} {desk after : Desk} {a : α} :
    (flushing work).Gives desk a after ↔ work.Gives desk a after := by
  unfold Gives flushing
  rcases work desk with ⟨why | b, mid⟩
  · exact ⟨nofun, nofun⟩
  · exact Iff.rfl

/-! ### Loops -/

@[simp] theorem gives_forIn_nil {f : α → PUnit → Work (ForInStep PUnit)} {u : PUnit}
    {desk after : Desk} :
    (forIn ([] : List α) PUnit.unit f).Gives desk u after ↔ desk = after := by
  rw [List.forIn_nil, gives_pure]
  simp

theorem gives_forIn_cons {body : α → Work β} {x : α} {xs : List α} {u : PUnit}
    {desk after : Desk} :
    (forIn (x :: xs) PUnit.unit fun a _ =>
        (body a >>= fun _ => pure (ForInStep.yield PUnit.unit))).Gives desk u after ↔
      ∃ b mid, (body x).Gives desk b mid ∧
        (forIn xs PUnit.unit fun a _ =>
          (body a >>= fun _ => pure (ForInStep.yield PUnit.unit))).Gives mid u after := by
  rw [List.forIn_cons]
  simp only [gives_bind, gives_pure]
  constructor
  · intro h
    obtain ⟨_, _, ⟨b, _, hb, rfl, rfl⟩, h⟩ := h
    exact ⟨b, _, hb, h⟩
  · intro h
    obtain ⟨b, mid, hb, h⟩ := h
    exact ⟨_, mid, ⟨b, mid, hb, rfl, rfl⟩, h⟩

/-- A loop of checks changes nothing. -/
theorem gives_forIn_check {f : α → Checked β} {xs : List α} {u : PUnit} {desk after : Desk} :
    (forIn xs PUnit.unit fun a _ =>
        (check (f a) >>= fun _ => pure (ForInStep.yield PUnit.unit))).Gives desk u after ↔
      (∀ a ∈ xs, ∃ b, f a = .ok b) ∧ desk = after := by
  induction xs generalizing desk with
  | nil => simp
  | cons x xs ih =>
    rw [gives_forIn_cons]
    simp only [gives_check, ih, List.forall_mem_cons]
    constructor
    · intro h
      obtain ⟨b, _, ⟨hb, rfl⟩, hrest, h⟩ := h
      exact ⟨⟨⟨b, hb⟩, hrest⟩, h⟩
    · intro h
      obtain ⟨⟨⟨b, hb⟩, hrest⟩, h⟩ := h
      exact ⟨b, desk, ⟨hb, rfl⟩, hrest, h⟩

/-- A loop of writes is one write. -/
theorem gives_forIn_write {g : α → Store → Store} {xs : List α} {u : PUnit} {desk after : Desk}
    {s : Store} (hs : desk.Holds s) :
    (forIn xs PUnit.unit fun a _ =>
        (write (g a) >>= fun _ => pure (ForInStep.yield PUnit.unit))).Gives desk u after ↔
      desk.keep (xs.foldl (fun t a => g a t) s) = after := by
  induction xs generalizing desk s with
  | nil => simp [hs.keep_self]
  | cons x xs ih =>
    rw [gives_forIn_cons]
    simp only [gives_write, List.foldl_cons]
    constructor
    · intro h
      obtain ⟨_, _, ⟨t, ht, rfl⟩, hrest⟩ := h
      rw [ht.unique hs] at hrest
      exact (ih (hs.keep _)).mp hrest
    · intro h
      exact ⟨⟨⟩, desk.keep (g x s), ⟨s, hs, rfl⟩, (ih (hs.keep _)).mpr h⟩

@[simp] theorem gives_mapM_nil {f : α → Work β} {bs : List β} {desk after : Desk} :
    (([] : List α).mapM f).Gives desk bs after ↔ [] = bs ∧ desk = after := by
  rw [List.mapM_nil, gives_pure]

theorem gives_mapM_cons {f : α → Work β} {x : α} {xs : List α} {bs : List β}
    {desk after : Desk} :
    ((x :: xs).mapM f).Gives desk bs after ↔
      ∃ b mid rest, (f x).Gives desk b mid ∧ (xs.mapM f).Gives mid rest after ∧ b :: rest = bs := by
  rw [List.mapM_cons]
  simp only [gives_bind, gives_pure]
  constructor
  · intro h
    obtain ⟨b, mid, hb, rest, _, hrest, h, rfl⟩ := h
    exact ⟨b, mid, rest, hb, hrest, h⟩
  · intro h
    obtain ⟨b, mid, rest, hb, hrest, h⟩ := h
    exact ⟨b, mid, hb, rest, after, hrest, h, rfl⟩

/-- A loop whose every turn takes the tables one step further takes them any number of steps. -/
theorem steps_of_mapM {R : Store → Store → Prop} {f : α → Work β}
    (step : ∀ {desk after : Desk} {s : Store} {a : α} {b : β}, desk.Holds s →
      (f a).Gives desk b after → ∃ t, after.Holds t ∧ R s t)
    {xs : List α} {bs : List β} {desk after : Desk} {s : Store} (hs : desk.Holds s)
    (h : (xs.mapM f).Gives desk bs after) :
    ∃ t, after.Holds t ∧ Relation.ReflTransGen R s t := by
  induction xs generalizing desk s bs with
  | nil =>
    obtain ⟨-, rfl⟩ := gives_mapM_nil.mp h
    exact ⟨s, hs, .refl⟩
  | cons x xs ih =>
    obtain ⟨_, _, _, hfirst, hrest, -⟩ := gives_mapM_cons.mp h
    obtain ⟨t, ht, hstep⟩ := step hs hfirst
    obtain ⟨u, hu, hsteps⟩ := ih ht hrest
    exact ⟨u, hu, .head hstep hsteps⟩

end Work

/-! ### Units -/

/-- A unit of work is kept exactly if its work succeeds and no write was refused on the way. -/
theorem Desk.commit_ok {α : Type} {work : Work α} {desk after : Desk} {a : α} :
    desk.commit work = (.ok a, after) ↔
      work.Gives { desk with spoiled := false } a after ∧ after.spoiled = false := by
  unfold commit Work.Gives
  rcases work { desk with spoiled := false } with ⟨why | b, mid⟩
  · exact ⟨nofun, fun h => nomatch h.1⟩
  · cases hm : mid.spoiled with
    | true =>
      simp only [hm, if_true]
      constructor
      · nofun
      · intro h
        obtain ⟨h, hs⟩ := h
        injection h with _ hdesk
        rw [hdesk, hs] at hm
        cases hm
    | false =>
      simp only [hm, Bool.false_eq_true, if_false]
      constructor
      · intro h
        refine ⟨h, ?_⟩
        injection h with _ hdesk
        rw [← hdesk]
        exact hm
      · exact And.left

/-- A unit of work that fails leaves the tables as they were. -/
theorem Desk.tables_commit_error {α : Type} {work : Work α} {desk after : Desk} {why : Fault}
    (h : desk.commit work = (.error why, after)) : after.tables = desk.tables := by
  unfold commit at h
  split at h
  · split at h
    · injection h with _ hdesk
      rw [← hdesk]
    · cases h
  · injection h with _ hdesk
    rw [← hdesk]

theorem Desk.transact_ok {α : Type} {operation : String} {work : Work α} {desk after : Desk}
    {a : α} :
    desk.transact operation work = (.ok a, after) ↔ desk.commit work = (.ok a, after) := by
  unfold transact
  split
  · next hc =>
    rw [hc]
    exact ⟨nofun, nofun⟩
  · exact Iff.rfl

theorem Desk.tables_transact_error {α : Type} {operation : String} {work : Work α}
    {desk after : Desk} {why : Fault} (h : desk.transact operation work = (.error why, after)) :
    after.tables = desk.tables := by
  unfold transact at h
  split at h
  · next hc =>
    injection h with _ hdesk
    rw [← hdesk, tables_note]
    exact tables_commit_error hc
  · exact tables_commit_error h

/-! ### Failures that leave tables -/

namespace Work
variable {α β : Type} {desk mid : Desk} {t : Store} {why : Fault}

/-- Work that fails for a reason and leaves tables behind, which are kept or undone by the unit of
work it is part of. -/
def FailsWith (work : Work α) (desk : Desk) (why : Fault) (t : Store) : Prop :=
  ∃ after, work desk = (.error why, after) ∧ after.Holds t

theorem Gives.failsWith {x : Work α} {f : α → Work β} {a : α} (h : x.Gives desk a mid)
    (hf : (f a).FailsWith mid why t) : (x >>= f).FailsWith desk why t := by
  obtain ⟨after, herror, ht⟩ := hf
  exact ⟨after, (bind_of_ok h).trans herror, ht⟩

theorem FailsWith.bind {x : Work α} {f : α → Work β} (h : x.FailsWith desk why t) :
    (x >>= f).FailsWith desk why t := by
  obtain ⟨after, herror, ht⟩ := h
  exact ⟨after, bind_of_error herror, ht⟩

theorem failsWith_storeFails {cause : StoreFault} (h : desk.Holds t) :
    (storeFails cause : Work α).FailsWith desk (.store cause) t := ⟨desk, rfl, h⟩

theorem failsWith_refuse {why : Refusal} (h : desk.Holds t) :
    (refuse why : Work α).FailsWith desk (.refused why) t := ⟨desk, rfl, h⟩

/-- Work ends in one way only. -/
theorem FailsWith.unique {work : Work α} {other : Fault} {after : Desk}
    (h : work.FailsWith desk why t) (hother : work desk = (.error other, after)) :
    other = why ∧ after.Holds t := by
  obtain ⟨left, herror, ht⟩ := h
  have hsame := hother.symm.trans herror
  injection hsame with hwhy hdesk
  exact ⟨Except.error.inj hwhy, hdesk ▸ ht⟩

theorem FailsWith.not_gives {work : Work α} {a : α} {after : Desk}
    (h : work.FailsWith desk why t) : ¬work.Gives desk a after := by
  intro hgives
  obtain ⟨left, herror, -⟩ := h
  cases hgives.symm.trans herror

end Work

/-- A failure of the store is reported under the name of the operation. -/
theorem Desk.transact_failsWith {α : Type} {work : Work α} {desk : Desk} {cause : StoreFault}
    {t : Store} (h : work.FailsWith { desk with spoiled := false } (.store cause) t)
    (operation : String) :
    ∃ after, desk.transact operation work =
      (.error (.refused (.unsaved operation cause)), after) := by
  obtain ⟨after, herror, -⟩ := h
  unfold transact commit
  rw [herror]
  exact ⟨_, rfl⟩

end Ledger
end TipJar
