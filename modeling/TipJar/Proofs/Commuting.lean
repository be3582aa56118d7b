import TipJar.Proofs.Screening

/-! Independent transfers.

Two transfers are independent if they are paid from different accounts and neither
pays the account of the other; they may pay the same third ones. It makes no
difference which of them comes first. What a transfer ends in is decided by what is
seen of its source, which the other one leaves alone, and what it does to an account
is to take a number from it or to add one. Only identifiers and times tell which
came first, unless both pay an account whose column has no room for the two shares:
sums that outgrow a column are rounded, and then the order of the parts counts. -/
namespace TipJar
open Ledger

/-- Transfers of which neither touches the account that the other one is paid from. -/
structure Transfer.Intent.Apart (i j : Intent) : Prop where
  sources : i.source ≠ j.source
  first : i.source ∉ j.destinations
  second : j.source ∉ i.destinations

/-- A transfer as somebody asks for it: its operation, its request, the least amount that will do,
and the drop whose hold it may use. -/
structure Errand where
  operation : String
  intent : Transfer.Intent
  minimum : Amount
  except : Option Uuid

/-- Makes a transfer in a unit of work of its own: what it reports, and what it leaves. -/
def State.pay (σ : State) (e : Errand) (desk : Desk) : Checked Transfer.Receipt × State :=
  let done := (σ.begun desk).transact e.operation (execute e.intent e.minimum e.except)
  (done.1, ⟨done.2.tables.getD σ.store, σ.history⟩)

/-- A desk that can stamp what a transfer writes: its clock fits a column, and its identifiers are
new. -/
structure Ledger.Desk.IsReady (desk : Desk) (s : Store) (e : Errand) : Prop where
  timed : ∃ utc, desk.now.IsStoredAs utc
  fresh : desk.IsFresh s (e.intent.destinations.length + 1)

/-! ### The same, but for identifiers and times -/

/-- Transfers that report the same: the same fault, or receipts that differ at most in their events
and times. -/
inductive Checked.Agree : Checked Transfer.Receipt → Checked Transfer.Receipt → Prop
  | failed (why : Fault) : Agree (.error why) (.error why)
  | settled {r q : Transfer.Receipt}
      (same : q = { r with event := q.event, settledAt := q.settledAt }) : Agree (.ok r) (.ok q)

namespace Ledger

/-- Entries that differ at most in their identifiers and times, once events are renamed. -/
def Entry.Renamed (rename : Uuid → Uuid) (a b : Entry) : Prop :=
  b = { a with id := b.id, event := rename a.event, recordedAt := b.recordedAt }

/-- Whether lists hold the same entries up to identifiers and times, in whatever order. Entries of
one event are entries of one event on the other side as well, and those of two are of two. -/
def SameEntries (xs ys : List Entry) : Prop :=
  ∃ rename ordered, ordered.Perm ys ∧ xs.Forall₂ (Entry.Renamed rename) ordered ∧
    ∀ a ∈ xs, ∀ b ∈ xs, rename a.event = rename b.event → a.event = b.event

/-- Whether two courses from the same tables come to the same: the accounts that are asked for are
the same, and so are drops, entries that were there, and new entries up to identifiers and times. -/
structure Store.Concur (start s t : Store) (asked : String → Prop) : Prop where
  accounts : ∀ name, asked name → s.account? name = t.account? name
  drops : s.drops = t.drops
  entries : ∃ new other, s.entries = start.entries ++ new ∧ t.entries = start.entries ++ other ∧
    SameEntries new other

/-- Whether the column of a name has room for both shares, if two transfers pay it one each. -/
def Store.HasRoom (s : Store) (i j : Transfer.Intent) (name : String) : Prop :=
  name ∈ i.destinations → name ∈ j.destinations →
    ((s.balance name).units + i.split.share.units + j.split.share.units : Nat) ≤ columnMax

section Entries
variable {i : Transfer.Intent} {share : Amount} {event other : Uuid} {utc later : Moment}
  {line : Nat} {xs xs' ys ys' : List Entry} {x x' y y' : Uuid}

/-- A transfer leaves the same entries whenever and under whatever identifiers it is made. -/
theorem renamed_entriesFor {stamped again : List (String × Uuid)}
    (same : stamped.map (·.1) = again.map (·.1)) :
    (entriesFor event i share utc line stamped).Forall₂ (Entry.Renamed fun _ => other)
      (entriesFor other i share later line again) := by
  induction stamped generalizing line again with
  | nil =>
    obtain rfl := List.map_eq_nil_iff.mp same.symm
    exact .nil
  | cons s rest ih =>
    obtain ⟨t, more, rfl, hname, hmore⟩ := List.map_eq_cons_iff.mp same.symm
    refine .cons ?_ (ih hmore.symm)
    show Entry.mk .. = _
    rw [hname]

theorem renamed_rowsFor (desk again : Desk) (i : Transfer.Intent) (utc later : Moment) :
    (desk.rowsFor i utc).Forall₂ (Entry.Renamed fun _ => again.ids again.nextId)
      (again.rowsFor i later) :=
  renamed_entriesFor (by rw [map_fst_stamp, map_fst_stamp])

/-- Only the renaming of the events that are there matters. -/
theorem renamed_congr {rename again : Uuid → Uuid} (h : xs.Forall₂ (Entry.Renamed rename) ys)
    (same : ∀ a ∈ xs, rename a.event = again a.event) : xs.Forall₂ (Entry.Renamed again) ys := by
  induction h with
  | nil => exact .nil
  | @cons a b _ _ hab _ ih =>
    refine .cons ?_ (ih fun c hc => same c (List.mem_cons_of_mem a hc))
    unfold Entry.Renamed at hab ⊢
    rw [← same a List.mem_cons_self]
    exact hab

/-- The entries of two events, of which either may have none, in either order. -/
theorem sameEntries_append (first : xs.Forall₂ (Entry.Renamed fun _ => x') xs')
    (second : ys.Forall₂ (Entry.Renamed fun _ => y') ys')
    (hxs : ∀ a ∈ xs, a.event = x) (hys : ∀ b ∈ ys, b.event = y)
    (apart : xs ≠ [] → ys ≠ [] → x ≠ y ∧ x' ≠ y') : SameEntries (xs ++ ys) (ys' ++ xs') := by
  by_cases hsome : xs = []
  · obtain rfl := hsome
    obtain rfl := List.forall₂_nil_left_iff.mp first
    refine ⟨fun _ => y', ys', .of_eq (List.append_nil _).symm, second, fun a ha b hb _ => ?_⟩
    rw [hys a ha, hys b hb]
  by_cases hmore : ys = []
  · obtain rfl := hmore
    obtain rfl := List.forall₂_nil_left_iff.mp second
    rw [List.append_nil]
    refine ⟨fun _ => x', xs', .refl _, first, fun a ha b hb _ => ?_⟩
    rw [hxs a ha, hxs b hb]
  obtain ⟨hnew, hnew'⟩ := apart hsome hmore
  have hrename {a : Entry} (ha : a ∈ xs ++ ys) : a.event = x ∨ a.event = y :=
    (List.mem_append.mp ha).imp (hxs a) (hys a)
  refine ⟨fun u => if u = x then x' else y', xs' ++ ys', List.perm_append_comm,
    List.rel_append ?_ ?_, fun a ha b hb heq => ?_⟩
  · exact renamed_congr first fun a ha => (if_pos (hxs a ha)).symm
  · exact renamed_congr second fun b hb => (if_neg fun h => hnew (h.symm.trans (hys b hb))).symm
  · rcases hrename ha with h | h <;> rcases hrename hb with h' | h' <;>
      simp_all [Ne.symm hnew, Ne.symm hnew']

end Entries

/-! ### What a transfer does to an account -/

end Ledger

namespace Transfer.Intent
variable {i j : Intent}

/-- What a transfer makes of the account of a name. -/
def change (i : Intent) (name : String) (account : Option Account) : Option Account :=
  if name ∈ i.source :: i.destinations then
    let a := account.getD (.opened name)
    some { a with balance := ⟨
      if i.source = name then (columnDifference a.balance.units i.split.moved.units).toNat
      else columnSum a.balance.units i.split.share.units⟩ }
  else account

theorem account?_transferred (s : Store) (rows : List Entry) (proper : i.IsProper) (name : String) :
    (s.transferred i rows).account? name = i.change name (s.account? name) := by
  have h := s.account?_debitedAndCredited i.source i.credits name
  rw [map_fst_credits] at h
  simp only [Store.settledBalance, sum_credits, Store.topped_credits name proper.different] at h
  refine h.trans ?_
  unfold change
  by_cases hsource : i.source = name
  · have hnot : name ∉ i.destinations := hsource ▸ proper.apart
    have hparty : name ∈ i.source :: i.destinations := hsource ▸ List.mem_cons_self
    simp only [if_pos hparty, if_pos hsource, if_neg hnot]
    rfl
  by_cases hmem : name ∈ i.destinations
  · simp only [if_pos (List.mem_cons_of_mem _ hmem), if_neg hsource, if_pos hmem]
    rfl
  · have hnone : name ∉ i.source :: i.destinations := by
      simp [Ne.symm hsource, hmem]
    simp only [if_neg hnone, if_neg hsource, if_neg hmem]
    cases s.account? name <;> rfl

/-- Both transfers may add to an account, but neither takes from one that the other one touches. -/
theorem change_comm (apart : i.Apart j) {name : String} {account : Option Account}
    (room : name ∈ i.destinations → name ∈ j.destinations →
      ((account.getD (.opened name)).balance.units + i.split.share.units + j.split.share.units :
        Nat) ≤ columnMax) :
    i.change name (j.change name account) = j.change name (i.change name account) := by
  by_cases hi : name ∈ i.source :: i.destinations
  case neg => simp only [change, if_neg hi]
  by_cases hj : name ∈ j.source :: j.destinations
  case neg => simp only [change, if_neg hj]
  have hsource : i.source ≠ name := by
    rintro rfl
    exact (List.mem_cons.mp hj).elim apart.sources apart.first
  have hother : j.source ≠ name := by
    rintro rfl
    exact (List.mem_cons.mp hi).elim (Ne.symm apart.sources) apart.second
  have hroom := room ((List.mem_cons.mp hi).resolve_left (Ne.symm hsource))
    ((List.mem_cons.mp hj).resolve_left (Ne.symm hother))
  simp only [change, if_pos hi, if_pos hj, if_neg hsource, if_neg hother, Option.getD_some]
  generalize (account.getD (.opened name)).balance.units = balance at hroom
  rw [columnSum_of_fits (a := balance) (by omega), columnSum_of_fits (a := balance) (by omega),
    columnSum_of_fits (by omega), columnSum_of_fits (by omega), Nat.add_right_comm]

/-- What is seen of a source stays what it is when an independent transfer is made. -/
theorem view_transferred (s : Store) (rows : List Entry) (name : String) (except : Option Uuid)
    (h : name ∉ i.source :: i.destinations) :
    (s.transferred i rows).view name except = s.view name except := by
  unfold Store.view Store.balance
  rw [s.account?_transferred_of_not_mem rows name h,
    Store.held_congr name except (s.drops_transferred rows)]

end Transfer.Intent

/-! ### How a transfer ends -/

namespace Errand
variable {e a b : Errand} {s : Store} {σ : State} {desk : Desk}

/-- The checks of the funds: what moves has to fit a column, the holds too, and then it has to be
there. -/
def fundsFault (e : Errand) (s : Store) : Option Fault :=
  if columnMax < e.intent.split.moved.units then some (.beyond .stored)
  else if columnMax < (s.held e.intent.source e.except).units then some (.store .overflowed)
  else if s.Covers e.intent.source e.except e.intent.split.moved then none
  else some (.refused (.insufficientFunds e.intent.source e.intent.split.moved
    (s.view e.intent.source e.except).available))

theorem fundsFault_eq_none : e.fundsFault s = none ↔
    e.intent.split.moved.units ≤ columnMax ∧
      (s.held e.intent.source e.except).units ≤ columnMax ∧
      s.Covers e.intent.source e.except e.intent.split.moved := by
  unfold fundsFault
  by_cases large : columnMax < e.intent.split.moved.units
  · simp [large, Int.not_le.mpr large]
  by_cases overflowed : columnMax < (s.held e.intent.source e.except).units
  · simp [large, overflowed, Int.not_le.mpr overflowed]
  · simp [large, overflowed, Int.not_lt.mp large, Int.not_lt.mp overflowed]

/-- A debit of what moves that can only be denied for the funds is denied for their fault. -/
theorem fundsFault_of_denial {why : Fault} (nonempty : e.intent.destinations ≠ [])
    (named : ∀ name ∈ e.intent.source :: e.intent.destinations, IsName name)
    (denial : Denial s e.intent.source e.intent.destinations e.intent.split.moved e.except why) :
    e.fundsFault s = some why := by
  unfold fundsFault
  cases denial with
  | nobody none => exact absurd none nonempty
  | unnamed _ party unnamed => exact absurd (named _ party) unnamed
  | oversized large => rw [if_pos large]
  | overflowed fits large => rw [if_neg (Int.not_lt.mpr fits), if_pos large]
  | uncovered fits summed short =>
    rw [if_neg (Int.not_lt.mpr fits), if_neg (Int.not_lt.mpr summed), if_neg short]

/-- The first fault of the checks of a transfer: its own, those of the names of all parties, the
source coming last, and that of the funds. -/
def fault? (e : Errand) (s : Store) : Option Fault :=
  Fault.first (Checked.fault? ((e.intent.check e.minimum).mapError .refused) ::
    ((e.intent.destinations ++ [e.intent.source]).map nameFault ++ [e.fundsFault s]))

theorem fault?_of_improper {why : Refusal} (h : e.intent.check e.minimum = .error why) :
    e.fault? s = some (.refused why) := by
  unfold fault?
  rw [h]
  rfl

theorem fault?_of_proper (h : e.intent.check e.minimum = .ok ()) :
    e.fault? s = (Fault.first ((e.intent.destinations ++ [e.intent.source]).map nameFault)).or
      (e.fundsFault s) := by
  unfold fault?
  rw [h]
  refine (Fault.first_append _ _).trans ?_
  cases e.fundsFault s <;> rfl

theorem fault?_eq_none : e.fault? s = none ↔
    e.intent.check e.minimum = .ok () ∧
      (∀ name ∈ e.intent.source :: e.intent.destinations, IsName name) ∧
      e.intent.split.moved.units ≤ columnMax ∧
      (s.held e.intent.source e.except).units ≤ columnMax ∧
      s.Covers e.intent.source e.except e.intent.split.moved := by
  cases hcheck : e.intent.check e.minimum with
  | error why => simp [fault?_of_improper hcheck]
  | ok u =>
    rw [fault?_of_proper hcheck, Option.or_eq_none_iff, first_parties, fundsFault_eq_none]
    simp

/-- Of the tables, the checks see only the source. -/
theorem fault?_congr {t : Store}
    (same : s.view e.intent.source e.except = t.view e.intent.source e.except) :
    e.fault? s = e.fault? t := by
  have hbalance : s.balance e.intent.source = t.balance e.intent.source :=
    congrArg Balance.balance same
  have hheld : s.held e.intent.source e.except = t.held e.intent.source e.except :=
    congrArg Balance.held same
  have hcovers : s.Covers e.intent.source e.except e.intent.split.moved ↔
      t.Covers e.intent.source e.except e.intent.split.moved := by
    unfold Store.Covers
    rw [hheld, hbalance]
  simp only [fault?, fundsFault, same, hheld, hcovers]

/-- A transfer that fails a check fails with the first fault that there is. -/
theorem execute_faulty {why : Fault} (h : e.fault? s = some why) :
    (execute e.intent e.minimum e.except).FailsOnly s (· = why) := by
  cases hcheck : e.intent.check e.minimum with
  | error refusal =>
    obtain rfl := Option.some.inj ((fault?_of_improper hcheck).symm.trans h)
    exact execute_improper hcheck rfl
  | ok u =>
    rw [fault?_of_proper hcheck] at h
    cases hnamed : Fault.first ((e.intent.destinations ++ [e.intent.source]).map nameFault) with
    | some other =>
      rw [hnamed] at h
      obtain rfl := Option.some.inj h
      exact execute_misnamed hcheck hnamed
    | none =>
      rw [hnamed, Option.none_or] at h
      have named := first_parties.mp hnamed
      have nonempty := (Transfer.Intent.check_ok.mp hcheck).1
      have hmoved : Amount.sum ((gather e.intent.credits).map (·.2)) = e.intent.split.moved := by
        rw [gather_credits hcheck, Transfer.Intent.sum_credits]
      refine execute_denied (debitAndCredit_failsOnly.imp fun other denial => ?_)
        (fun desk total after hs hgives => ?_) hcheck
      · rw [hmoved, Transfer.Intent.map_fst_credits] at denial
        exact Option.some.inj ((fundsFault_of_denial nonempty named denial).symm.trans h)
      · obtain ⟨t, ht, -, -, rfl, fits, summed, covered, -⟩ := debitAndCredit_gives.mp hgives
        obtain rfl := hs.unique ht
        rw [hmoved] at fits covered
        cases h.symm.trans (fundsFault_eq_none.mpr ⟨fits, summed, covered⟩)

/-- A transfer that passes its checks can be paid at a desk that is ready. -/
theorem canPay (passed : e.fault? s = none) (ready : desk.IsReady s e) :
    ∃ utc, desk.CanPay s e.intent e.minimum e.except utc := by
  obtain ⟨proper, names, fits, summed, covered⟩ := fault?_eq_none.mp passed
  obtain ⟨utc, timed⟩ := ready.timed
  exact ⟨utc, proper, names, fits, summed, covered, timed, Store.admits_of_fresh ready.fresh utc⟩

/-- A transfer that fails a check changes nothing. -/
theorem pay_faulty {why : Fault} (h : e.fault? σ.store = some why) (desk : Desk) :
    σ.pay e desk = (.error (why.reported e.operation), σ) := by
  have never (receipt : Transfer.Receipt) (after : Desk) :
      ¬(execute e.intent e.minimum e.except).Gives (σ.begun desk) receipt after := by
    intro hgives
    obtain ⟨t, utc, ht, pays, -⟩ := execute_gives.mp hgives
    obtain rfl := (σ.holds_begun desk).unique ht
    cases h.symm.trans (fault?_eq_none.mpr
      ⟨pays.proper, pays.names, pays.fits, pays.summed, pays.covered⟩)
  obtain ⟨_, after, hdone, rfl⟩ :=
    State.transact_begun_reports (execute_faulty h) never e.operation
  have htables : after.tables = some σ.store := Desk.tables_transact_error hdone
  simp only [State.pay, hdone, htables, Option.getD_some]

/-- A transfer that passes its checks is kept at a desk that is ready. -/
theorem pay_passed (passed : e.fault? σ.store = none) (ready : desk.IsReady σ.store e) :
    ∃ utc, σ.pay e desk =
      (.ok (.ofSplit (desk.ids desk.nextId) e.intent e.intent.split desk.now),
        ⟨σ.store.transferred e.intent (desk.rowsFor e.intent utc), σ.history⟩) := by
  have hbegun : (σ.begun desk).IsReady σ.store e :=
    ⟨ready.timed, ready.fresh.different, ready.fresh.unused⟩
  obtain ⟨utc, pays⟩ := canPay passed hbegun
  have hgives := execute_gives.mpr ⟨_, utc, σ.holds_begun desk, pays, rfl, rfl⟩
  have hleft := (σ.holds_begun desk).afterTransfer e.intent
    (σ.store.transferred e.intent ((σ.begun desk).rowsFor e.intent utc))
  have hdone : (σ.begun desk).transact e.operation _ = _ :=
    State.transact_begun_ok.mpr ⟨hgives, hleft.sound⟩
  refine ⟨utc, ?_⟩
  simp only [State.pay, hdone, hleft.tables, Option.getD_some]
  rfl

/-- How a transfer ends: as its checks say, whatever the desk. Its entries, if it leaves any, are
those of an event of their own. -/
inductive Ends (e : Errand) (σ : State) :
    Checked Transfer.Receipt → State → Uuid → List Entry → Prop
  | failed {why : Fault} (event : Uuid) (fault : e.fault? σ.store = some why) :
      Ends e σ (.error (why.reported e.operation)) σ event []
  | settled (desk : Desk) (utc : Moment) (passed : e.fault? σ.store = none)
      (fresh : ∀ x ∈ σ.store.entries, x.event ≠ desk.ids desk.nextId) :
      Ends e σ (.ok (.ofSplit (desk.ids desk.nextId) e.intent e.intent.split desk.now))
        ⟨σ.store.transferred e.intent (desk.rowsFor e.intent utc), σ.history⟩
        (desk.ids desk.nextId) (desk.rowsFor e.intent utc)

theorem pay_ends (ready : desk.IsReady σ.store e) :
    ∃ event rows, e.Ends σ (σ.pay e desk).1 (σ.pay e desk).2 event rows := by
  cases h : e.fault? σ.store with
  | some why =>
    rw [pay_faulty h desk]
    exact ⟨desk.ids desk.nextId, [], .failed _ h⟩
  | none =>
    obtain ⟨utc, hpay⟩ := pay_passed h ready
    rw [hpay]
    exact ⟨_, _, .settled desk utc h fun x hx => (ready.fresh.unused 0 (Nat.succ_pos _) x hx).2⟩

/-- What an errand makes of an account: nothing, if it fails. -/
def effect (e : Errand) (s : Store) (name : String) (account : Option Account) : Option Account :=
  if e.fault? s = none then e.intent.change name account else account

theorem effect_comm (apart : a.intent.Apart b.intent) (s : Store) {name : String}
    (room : s.HasRoom a.intent b.intent name) :
    a.effect s name (b.effect s name (s.account? name)) =
      b.effect s name (a.effect s name (s.account? name)) := by
  have hbalance := s.balance_getD_opened name
  unfold effect
  split <;> split <;> first
    | rfl
    | exact Transfer.Intent.change_comm apart fun ha hb => hbalance ▸ room ha hb

namespace Ends
variable {τ σ' τ' : State} {r r' : Checked Transfer.Receipt} {event event' : Uuid}
  {rows rows' : List Entry}

theorem account? (h : e.Ends σ r τ event rows) (name : String) :
    τ.store.account? name = e.effect σ.store name (σ.store.account? name) := by
  unfold effect
  cases h with
  | failed _ fault => rw [fault, if_neg (Option.some_ne_none _)]
  | settled desk utc passed =>
    rw [if_pos passed]
    obtain ⟨some, different, apart, -⟩ :=
      Transfer.Intent.check_ok.mp (fault?_eq_none.mp passed).1
    exact Transfer.Intent.account?_transferred σ.store _ ⟨some, different, apart⟩ name

theorem drops (h : e.Ends σ r τ event rows) : τ.store.drops = σ.store.drops := by
  cases h with
  | failed => rfl
  | settled => exact σ.store.drops_transferred _

theorem entries (h : e.Ends σ r τ event rows) : τ.store.entries = σ.store.entries ++ rows := by
  cases h with
  | failed => rw [List.append_nil]
  | settled => exact σ.store.entries_transferred _

theorem event_of_mem (h : e.Ends σ r τ event rows) {row : Entry} (hrow : row ∈ rows) :
    row.event = event := by
  cases h with
  | failed => cases hrow
  | settled => exact Store.event_of_mem_rowsFor hrow

/-- What has entries has an event that is new. -/
theorem event_ne (h : e.Ends σ r τ event rows) (hrows : rows ≠ []) {x : Entry}
    (hx : x ∈ σ.store.entries) : x.event ≠ event := by
  cases h with
  | failed => exact absurd rfl hrows
  | settled _ _ _ fresh => exact fresh x hx

/-- What is seen of another source is still seen of it, if it takes no part. -/
theorem fault? (h : a.Ends σ r τ event rows) (apart : a.intent.Apart b.intent) :
    b.fault? τ.store = b.fault? σ.store := by
  cases h with
  | failed => rfl
  | settled desk utc =>
    have hother : b.intent.source ∉ a.intent.source :: a.intent.destinations := fun hmem =>
      (List.mem_cons.mp hmem).elim (Ne.symm apart.sources) apart.second
    exact fault?_congr (Transfer.Intent.view_transferred σ.store _ _ _ hother)

/-- An errand that its checks treat alike ends alike. -/
theorem agree (h : e.Ends σ r τ event rows) (h' : e.Ends σ' r' τ' event' rows')
    (same : e.fault? σ.store = e.fault? σ'.store) :
    Checked.Agree r r' ∧ rows.Forall₂ (Entry.Renamed fun _ => event') rows' := by
  cases h with
  | failed _ fault =>
    cases h' with
    | failed _ fault' =>
      obtain rfl := Option.some.inj (fault.symm.trans (same.trans fault'))
      exact ⟨.failed _, .nil⟩
    | settled _ _ passed => cases fault.symm.trans (same.trans passed)
  | settled desk utc passed =>
    cases h' with
    | failed _ fault => cases passed.symm.trans (same.trans fault)
    | settled again later => exact ⟨.settled rfl, renamed_rowsFor desk again e.intent utc later⟩

end Ends
end Errand

theorem Transfer.Intent.Apart.symm {i j : Intent} (h : i.Apart j) : j.Apart i :=
  ⟨Ne.symm h.sources, h.second, h.first⟩

/-- Two independent transfers come to the same in either order: each ends as it does in the other
order, in the same receipt or the same fault, and what they leave differs in nothing but the
identifiers and times of their entries. Only an account that both pay, and whose column has no room
for the two shares, is not told. -/
theorem State.transfers_commute {σ : State} {a b : Errand} (apart : a.intent.Apart b.intent)
    {first second third fourth : Desk} (aFirst : first.IsReady σ.store a)
    (bSecond : second.IsReady (σ.pay a first).2.store b) (bFirst : third.IsReady σ.store b)
    (aSecond : fourth.IsReady (σ.pay b third).2.store a) :
    Checked.Agree (σ.pay a first).1 ((σ.pay b third).2.pay a fourth).1 ∧
    Checked.Agree ((σ.pay a first).2.pay b second).1 (σ.pay b third).1 ∧
    σ.store.Concur ((σ.pay a first).2.pay b second).2.store
      ((σ.pay b third).2.pay a fourth).2.store (σ.store.HasRoom a.intent b.intent) := by
  obtain ⟨_, xs, ha⟩ := Errand.pay_ends aFirst
  obtain ⟨_, ys, hab⟩ := Errand.pay_ends bSecond
  obtain ⟨_, ys', hb⟩ := Errand.pay_ends bFirst
  obtain ⟨_, xs', hba⟩ := Errand.pay_ends aSecond
  have hfaultA := hb.fault? apart.symm
  have hfaultB := ha.fault? apart
  obtain ⟨hagreeA, hrowsA⟩ := ha.agree hba hfaultA.symm
  obtain ⟨hagreeB, hrowsB⟩ := hab.agree hb hfaultB
  refine ⟨hagreeA, hagreeB, fun name room => ?_, ?_, xs ++ ys, ys' ++ xs', ?_, ?_, ?_⟩
  · rw [hab.account?, ha.account?, hba.account?, hb.account?]
    have heffect {e : Errand} {s t : Store} (same : e.fault? s = e.fault? t) :
        e.effect s name = e.effect t name := by
      unfold Errand.effect
      rw [same]
    rw [heffect hfaultB, heffect hfaultA]
    exact (Errand.effect_comm apart σ.store room).symm
  · rw [hab.drops, ha.drops, hba.drops, hb.drops]
  · rw [hab.entries, ha.entries, List.append_assoc]
  · rw [hba.entries, hb.entries, List.append_assoc]
  · refine sameEntries_append hrowsA hrowsB (fun _ => ha.event_of_mem) (fun _ => hab.event_of_mem)
      fun hxs hys => ?_
    -- The second transfer sees the entries of the first one, so its event is another one.
    obtain ⟨x, hx⟩ := List.exists_mem_of_ne_nil xs hxs
    have hys' : ys' ≠ [] := by
      rintro rfl
      exact hys (List.forall₂_nil_right_iff.mp hrowsB)
    have hxs' : xs' ≠ [] := by
      rintro rfl
      exact hxs (List.forall₂_nil_right_iff.mp hrowsA)
    obtain ⟨y, hy⟩ := List.exists_mem_of_ne_nil ys' hys'
    have hnew := hab.event_ne hys (ha.entries ▸ List.mem_append_right _ hx)
    have hnew' := hba.event_ne hxs' (hb.entries ▸ List.mem_append_right _ hy)
    rw [ha.event_of_mem hx] at hnew
    rw [hb.event_of_mem hy] at hnew'
    exact ⟨hnew, Ne.symm hnew'⟩

/-! ### Alice and Bob both tip Carol

Alice shares seven units between Carol and Dave, and Bob gives Carol two. Neither of the two who are
tipped has an account before. -/

namespace Sample

def twoFunded : State := funded.perform (.deposit (.text "bob") ⟨5⟩) "deposit" (desk 1)

def herTip : Errand := ⟨"role_tip", ⟨"alice", ["carol", "dave"], ⟨7⟩, .role⟩, ⟨1⟩, none⟩

def hisTip : Errand := ⟨"direct_tip", ⟨"bob", ["carol"], ⟨2⟩, .direct⟩, ⟨1⟩, none⟩

theorem herTip_passed : herTip.fault? twoFunded.store = none := by
  have named : ∀ name ∈ ["alice", "carol", "dave"], IsName name := by
    intro name hname
    rcases List.mem_cons.mp hname with rfl | hname
    · rfl
    · rcases List.mem_pair.mp hname with rfl | rfl <;> rfl
  exact Errand.fault?_eq_none.mpr ⟨Transfer.Intent.check_ok.mpr (by decide), named,
    by decide +kernel, by decide +kernel, by decide +kernel⟩

theorem hisTip_passed : hisTip.fault? twoFunded.store = none := by
  have named : ∀ name ∈ ["bob", "carol"], IsName name := by
    intro name hname
    rcases List.mem_pair.mp hname with rfl | rfl <;> rfl
  exact Errand.fault?_eq_none.mpr ⟨Transfer.Intent.check_ok.mpr (by decide), named,
    by decide +kernel, by decide +kernel, by decide +kernel⟩

theorem isReady_desk {s : Store} {e : Errand} {next later : Nat} (numbered : Numbered s next)
    (enough : next ≤ later)
    (room : later + (e.intent.destinations.length + 1) ≤ Uuid.count) :
    (desk later).IsReady s e :=
  ⟨⟨deadline, Moment.isStoredAs_self rfl⟩, numbered.isFresh enough room⟩

theorem isReady_first {e : Errand} (room : 2 + (e.intent.destinations.length + 1) ≤ Uuid.count) :
    (desk 2).IsReady twoFunded.store e :=
  isReady_desk (numbered_of_nil (by decide +kernel) 2) (Nat.le_refl _) room

/-- The desk of the second tip, if it goes on where the first one has stopped or later. -/
theorem isReady_second {e f : Errand} {later : Nat} (passed : e.fault? twoFunded.store = none)
    (room : 2 + (e.intent.destinations.length + 1) ≤ later)
    (more : later + (f.intent.destinations.length + 1) ≤ Uuid.count) :
    (desk later).IsReady (twoFunded.pay e (desk 2)).2.store f := by
  obtain ⟨utc, hpay⟩ := Errand.pay_passed passed (isReady_first (by omega))
  rw [hpay]
  have numbered : Numbered twoFunded.store 2 := numbered_of_nil (by decide +kernel) 2
  exact isReady_desk (numbered.transferred (by omega)) room more

end Sample

/-- Whoever comes first, Carol ends with five units. -/
theorem State.tips_commute :
    let hers := Sample.twoFunded.pay Sample.herTip (Sample.desk 2)
    let his := Sample.twoFunded.pay Sample.hisTip (Sample.desk 2)
    let hisAfter := hers.2.pay Sample.hisTip (Sample.desk 5)
    let hersAfter := his.2.pay Sample.herTip (Sample.desk 4)
    (Checked.Agree hers.1 hersAfter.1 ∧ Checked.Agree hisAfter.1 his.1 ∧
      Sample.twoFunded.store.Concur hisAfter.2.store hersAfter.2.store
        (Sample.twoFunded.store.HasRoom Sample.herTip.intent Sample.hisTip.intent)) ∧
      (hisAfter.2.store.balance "carol").units = 5 := by
  have apart : Sample.herTip.intent.Apart Sample.hisTip.intent :=
    ⟨by decide, by decide, by decide⟩
  have hers : (Sample.desk 2).IsReady Sample.twoFunded.store Sample.herTip :=
    Sample.isReady_first (by decide)
  have his : (Sample.desk 2).IsReady Sample.twoFunded.store Sample.hisTip :=
    Sample.isReady_first (by decide)
  have hisAfter : (Sample.desk 5).IsReady
      (Sample.twoFunded.pay Sample.herTip (Sample.desk 2)).2.store Sample.hisTip :=
    Sample.isReady_second Sample.herTip_passed (by decide) (by decide)
  have hersAfter : (Sample.desk 4).IsReady
      (Sample.twoFunded.pay Sample.hisTip (Sample.desk 2)).2.store Sample.herTip :=
    Sample.isReady_second Sample.hisTip_passed (by decide) (by decide)
  refine ⟨transfers_commute apart hers hisAfter his hersAfter, ?_⟩
  obtain ⟨_, _, ends⟩ := Errand.pay_ends hers
  have passed := (ends.fault? apart).trans Sample.hisTip_passed
  obtain ⟨_, hfirst⟩ := Errand.pay_passed Sample.herTip_passed hers
  obtain ⟨_, hsecond⟩ := Errand.pay_passed passed hisAfter
  rw [hsecond]
  show ((Store.transferred _ _ _).balance "carol").units = 5
  rw [Store.balance_transferred _ _ _ (by decide) (by decide), hfirst,
    Store.balance_transferred _ _ _ (by decide) (by decide)]
  decide +kernel

end TipJar
