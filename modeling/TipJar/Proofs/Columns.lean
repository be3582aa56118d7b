import TipJar.Ledger.Edits
import TipJar.Proofs.Failures

/-! Values that go into columns.

A changed column of a drop takes the values of its own kind: texts, moments, whole
numbers and amounts as far as the store can hold them, and an identifier that no
other drop has. Whatever value is offered, the tables are not touched before it is
taken, and a value that is not taken is never refused as a change of history. -/
namespace TipJar.Ledger

/-! ### Bringing values into columns -/

/-- A fault that is no refusal to change history. -/
def NotFrozen (why : Fault) : Prop := ∀ id change, why ≠ .refused (.frozen id change)

namespace Work
variable {α β : Type}

/-- Work that leaves the desk as it was if it succeeds. -/
def Stays (work : Work α) : Prop :=
  ∀ ⦃desk : Desk⦄ ⦃a : α⦄ ⦃after : Desk⦄, work.Gives desk a after → after = desk

theorem Stays.reads {work : Work α} (h : work.Stays) : work.Reads := by
  intro desk s a after hs hgives
  rw [h hgives]
  exact hs

theorem stays_pure {a : α} : (pure a : Work α).Stays := fun _ _ _ h => (gives_pure.mp h).2.symm

theorem stays_throw {why : Fault} : (throw why : Work α).Stays :=
  fun _ _ _ h => absurd h gives_throw

theorem Stays.bind {x : Work α} {f : α → Work β} (hx : x.Stays) (hf : ∀ a, (f a).Stays) :
    (x >>= f).Stays := by
  intro desk b after h
  obtain ⟨a, mid, ha, hb⟩ := gives_bind.mp h
  exact (hf a hb).trans (hx ha)

theorem stays_check {x : Checked α} : (check x).Stays := fun _ _ _ h => (gives_check.mp h).2.symm

/-- Work that brings values into their columns: it leaves the desk alone, and its faults are no
refusals to change history. -/
structure Binds (work : Work α) : Prop where
  stays : work.Stays
  fails : ∀ s, work.FailsOnly s NotFrozen

theorem binds_pure {a : α} : (pure a : Work α).Binds := ⟨stays_pure, fun _ => failsOnly_pure⟩

theorem binds_throw {why : Fault} (h : NotFrozen why) : (throw why : Work α).Binds :=
  ⟨stays_throw, fun _ => failsOnly_throw h⟩

theorem binds_storeFails {why : StoreFault} : (storeFails why : Work α).Binds :=
  binds_throw fun _ _ => nofun

theorem Binds.bind {x : Work α} {f : α → Work β} (hx : x.Binds) (hf : ∀ a, (f a).Binds) :
    (x >>= f).Binds :=
  ⟨hx.stays.bind fun a => (hf a).stays,
    fun s => (hx.fails s).ask hx.stays.reads fun a => (hf a).fails s⟩

theorem binds_tables : tables.Binds :=
  ⟨fun _ _ _ h => (gives_tables.mp h).2.symm, fun _ => failsOnly_tables⟩

theorem binds_column {n : Int} : (column n).Binds :=
  ⟨fun _ _ _ h => (gives_column.mp h).2.2.symm, fun _ => failsOnly_column fun _ _ _ => nofun⟩

theorem binds_stored {m : Moment} : (stored m).Binds :=
  ⟨fun _ _ _ h => (gives_stored.mp h).2.symm, fun _ => failsOnly_stored fun _ _ => nofun⟩

end Work

theorem lookupKey_error {v : Value} {why : Fault} (h : lookupKey v = .error why) :
    why = .beyond .stored ∨ why = .store .unsupported := by
  unfold lookupKey at h
  split at h <;> try split at h
  all_goals cases h
  · exact .inl rfl
  · exact .inr rfl

section Columns
variable {α : Type} (v : Value)

theorem binds_textColumn? : (textColumn? v).Binds := by
  refine ⟨Work.stays_check, fun s => Work.failsOnly_check fun why herror => ?_⟩
  rcases lookupKey_error herror with rfl | rfl <;> exact fun _ _ => nofun

theorem binds_textColumn : (textColumn v).Binds := by
  refine (binds_textColumn? v).bind fun found => ?_
  cases found with
  | none => exact Work.binds_storeFails
  | some s => exact Work.binds_pure

theorem binds_amountColumn? : (amountColumn? v).Binds := by
  unfold amountColumn?
  split
  · exact Work.binds_pure
  · exact Work.binds_column.bind fun _ => Work.binds_pure
  · refine Work.binds_column.bind fun _ => ?_
    split
    · exact Work.binds_storeFails
    · exact Work.binds_pure
  · exact Work.binds_storeFails

theorem binds_wholeColumn? : (wholeColumn? v).Binds := by
  unfold wholeColumn?
  split
  · exact Work.binds_pure
  · exact Work.binds_column.bind fun _ => Work.binds_pure
  · exact Work.binds_pure
  · exact Work.binds_storeFails

theorem binds_momentColumn? : (momentColumn? v).Binds := by
  unfold momentColumn?
  split
  · exact Work.binds_pure
  · exact Work.binds_stored.bind fun _ => Work.binds_pure
  · exact Work.binds_storeFails

theorem binds_uuidColumn? : (uuidColumn? v).Binds := by
  unfold uuidColumn?
  split
  · exact Work.binds_pure
  · exact Work.binds_pure
  · split
    · exact Work.binds_pure
    · exact Work.binds_throw fun _ _ => nofun

theorem binds_bookkeptColumn : (bookkeptColumn v).Binds := by
  unfold bookkeptColumn
  split
  · exact Work.binds_pure
  · exact Work.binds_pure
  · exact Work.binds_storeFails
  · exact Work.binds_storeFails

theorem binds_needed {column : Work (Option α)} (h : column.Binds) : (needed column).Binds := by
  refine h.bind fun found => ?_
  cases found with
  | none => exact Work.binds_storeFails
  | some a => exact Work.binds_pure

theorem binds_setDrop (d : Drop) (column : String) : (setDrop d column v).Binds := by
  unfold setDrop
  split
  case h_4 =>
    refine (binds_needed (binds_amountColumn? v)).bind fun amount => ?_
    dsimp only
    split
    · exact Work.binds_storeFails.bind fun _ => Work.binds_pure
    · exact Work.binds_pure
  all_goals first
    | exact Work.binds_pure
    | exact (binds_textColumn v).bind fun _ => Work.binds_pure
    | exact (binds_textColumn? v).bind fun _ => Work.binds_pure
    | exact (binds_needed (binds_momentColumn? v)).bind fun _ => Work.binds_pure
    | exact (binds_needed (binds_uuidColumn? v)).bind fun _ => Work.binds_pure
    | exact (binds_momentColumn? v).bind fun _ => Work.binds_pure
    | exact (binds_uuidColumn? v).bind fun _ => Work.binds_pure
    | exact (binds_wholeColumn? v).bind fun _ => Work.binds_pure
    | exact (binds_amountColumn? v).bind fun _ => Work.binds_pure
    | exact (binds_bookkeptColumn v).bind fun _ => Work.binds_pure

end Columns

theorem binds_setDropAll (d : Drop) (changes : Changes) : (setDropAll d changes).Binds := by
  induction changes generalizing d with
  | nil => exact Work.binds_pure
  | cons change rest ih =>
    unfold setDropAll
    rw [List.foldlM_cons]
    exact (binds_setDrop change.2 d change.1).bind fun changed => ih changed

/-! ### Values that fit -/

/-- Whether a value fits a column of the drop with an identifier: it has the form of the column, and
a new identifier is free. -/
inductive Fits (s : Store) (own : Uuid) : String → Value → Prop
  | text {column : String} (text : String)
      (named : column ∈ ["initiator", "trigger_token", "channel_ref", "message_ref", "status"]) :
      Fits s own column (.text text)
  | reason (text : Option String) : Fits s own "failure_reason" (.ofOption .text text)
  | amount (a : Amount) (something : a.units ≠ 0) (fits : (a.units : Int) ≤ columnMax) :
      Fits s own "amount" (.amount a)
  | moved (a : Option Amount) (fits : ∀ b ∈ a, (b.units : Int) ≤ columnMax) :
      Fits s own "moved_total" (.ofOption .amount a)
  | moment {column : String} {m utc : Moment} (stored : m.IsStoredAs utc)
      (named : column ∈ ["opened_at", "deadline"]) : Fits s own column (.moment m)
  | moment? {column : String} (m : Option Moment) (stored : ∀ n ∈ m, ∃ utc, n.IsStoredAs utc)
      (named : column ∈ ["claimed_at", "finished_at"]) : Fits s own column (.ofOption .moment m)
  | event (id : Option Uuid) : Fits s own "event_id" (.ofOption .uuid id)
  | count (n : Option Int) (fits : ∀ i ∈ n, -columnMax - 1 ≤ i ∧ i ≤ columnMax) :
      Fits s own "participant_count" (.ofOption .int n)
  | bookkept {column : String} (m : Moment) (named : column ∈ ["created_at", "updated_at"]) :
      Fits s own column (.moment m)
  | id {id : Uuid} (free : takesId s own id = false) : Fits s own "id" (.uuid id)
  | other {column : String} (v : Value) (unknown : column ∉ dropColumns) : Fits s own column v

section Fits
variable {desk : Desk} {s : Store} {own : Uuid}

/-- A value that fits is taken, and no identifier of another drop is. -/
theorem setDrop_gives {column : String} {v : Value} (hs : desk.Holds s)
    (fits : Fits s own column v) {d : Drop} (free : takesId s own d.id = false) :
    ∃ changed, (setDrop d column v).Gives desk changed desk ∧
      takesId s own changed.id = false := by
  have hcolumn {n : Int} (h : -columnMax - 1 ≤ n ∧ n ≤ columnMax) :
      (Work.column n).Gives desk ⟨⟩ desk := Work.gives_column.mpr ⟨⟨s, hs⟩, h, rfl⟩
  have hmoment {m utc : Moment} (h : m.IsStoredAs utc) :
      (momentColumn? (.moment m)).Gives desk (some m) desk :=
    Work.gives_bind.mpr ⟨utc, desk, Work.gives_stored.mpr ⟨h, rfl⟩, rfl⟩
  have hamount {a : Amount} (h : (a.units : Int) ≤ columnMax) :
      (amountColumn? (.amount a)).Gives desk (some a) desk :=
    Work.gives_bind.mpr ⟨⟨⟩, desk, hcolumn (natCast_fits.mpr h), rfl⟩
  cases fits with
  | text text named =>
    simp only [List.mem_cons, List.not_mem_nil, or_false] at named
    rcases named with rfl | rfl | rfl | rfl | rfl <;> exact ⟨_, rfl, free⟩
  | reason text => cases text <;> exact ⟨_, rfl, free⟩
  | amount a something fits =>
    refine ⟨{ d with amount := a }, Work.gives_bind.mpr ⟨a, desk, ?_, ?_⟩, free⟩
    · exact Work.gives_bind.mpr ⟨some a, desk, hamount fits, rfl⟩
    · dsimp only
      rw [if_neg something]
      rfl
  | moved a fits =>
    cases a with
    | none => exact ⟨_, rfl, free⟩
    | some a => exact ⟨_, Work.gives_bind.mpr ⟨_, desk, hamount (fits a rfl), rfl⟩, free⟩
  | moment stored named =>
    simp only [List.mem_cons, List.not_mem_nil, or_false] at named
    rcases named with rfl | rfl <;>
      exact ⟨_, Work.gives_bind.mpr ⟨_, desk,
        Work.gives_bind.mpr ⟨_, desk, hmoment stored, rfl⟩, rfl⟩, free⟩
  | moment? m stored named =>
    simp only [List.mem_cons, List.not_mem_nil, or_false] at named
    cases m with
    | none => rcases named with rfl | rfl <;> exact ⟨_, rfl, free⟩
    | some m =>
      obtain ⟨utc, hstored⟩ := stored m rfl
      rcases named with rfl | rfl <;>
        exact ⟨_, Work.gives_bind.mpr ⟨_, desk, hmoment hstored, rfl⟩, free⟩
  | event id => cases id <;> exact ⟨_, rfl, free⟩
  | count n fits =>
    cases n with
    | none => exact ⟨_, rfl, free⟩
    | some n =>
      exact ⟨_, Work.gives_bind.mpr ⟨_, desk,
        Work.gives_bind.mpr ⟨⟨⟩, desk, hcolumn (fits n rfl), rfl⟩, rfl⟩, free⟩
  | bookkept m named =>
    simp only [List.mem_cons, List.not_mem_nil, or_false] at named
    rcases named with rfl | rfl <;> exact ⟨d, rfl, free⟩
  | id other => exact ⟨_, rfl, other⟩
  | other v unknown =>
    refine ⟨d, ?_, free⟩
    unfold setDrop
    split <;> first | rfl | exact absurd (by decide) unknown

theorem setDropAll_gives {changes : Changes} (hs : desk.Holds s)
    (fits : ∀ change ∈ changes, Fits s own change.1 change.2) {d : Drop}
    (free : takesId s own d.id = false) :
    ∃ changed, (setDropAll d changes).Gives desk changed desk ∧
      takesId s own changed.id = false := by
  induction changes generalizing d with
  | nil => exact ⟨d, Work.gives_pure.mpr ⟨rfl, rfl⟩, free⟩
  | cons change rest ih =>
    obtain ⟨first, hfirst, hfree⟩ := setDrop_gives hs (fits change List.mem_cons_self) free
    obtain ⟨changed, hrest, hfree⟩ := ih (fun c hc => fits c (List.mem_cons_of_mem _ hc)) hfree
    refine ⟨changed, ?_, hfree⟩
    unfold setDropAll
    rw [List.foldlM_cons]
    exact Work.gives_bind.mpr ⟨first, desk, hfirst, hrest⟩

end Fits

end TipJar.Ledger
