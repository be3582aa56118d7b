import TipJar.Proofs.Commands

/-! The entries of an event.

An event is one transfer, and its entries say so: they are numbered from zero without
a gap, agree in everything but their number and their destination, and go to
different accounts, none of them their source, each of which is there once. That
nothing is missing in the middle is because a unit of work is kept whole or not at
all; that nothing is added later is because no unit of work writes under an event
that has entries. How many entries there are is up to whoever asked for the
transfer: a direct one comes from a command with a single recipient. -/
namespace TipJar
open Ledger

/-! ### What is said of one event -/

namespace Ledger.Store
variable {s t : Store} {i : Transfer.Intent} {event : Uuid} {name : String}

/-- Whether an account has exactly one row. -/
def HasOne (s : Store) (name : String) : Prop := (s.accounts.map (·.name)).count name = 1

/-- Whether the entries of an event make up one transfer. -/
structure IsWhole (s : Store) (event : Uuid) : Prop where
  numbered : (s.eventEntries event).map (·.line) =
    (List.range (s.eventEntries event).length).map Int.ofNat
  alike : ∀ e ∈ s.eventEntries event, ∀ o ∈ s.eventEntries event,
    e.source = o.source ∧ e.kind = o.kind ∧ e.amount = o.amount ∧ e.recordedAt = o.recordedAt
  different : ((s.eventEntries event).map (·.destination)).Nodup
  apart : ∀ e ∈ s.eventEntries event, ∀ o ∈ s.eventEntries event, e.source ≠ o.destination
  single : ∀ e ∈ s.eventEntries event,
    e.kind = .known .direct → (s.eventEntries event).length = 1
  accounts : ∀ e ∈ s.eventEntries event, s.HasOne e.source ∧ s.HasOne e.destination

theorem hasOne (differ : s.NamesDiffer) (there : (s.account? name).isSome) : s.HasOne name := by
  obtain ⟨a, ha⟩ := Option.isSome_iff_exists.mp there
  refine List.count_eq_one_of_mem differ (List.mem_map.mpr ⟨a, List.mem_of_find?_eq_some ha, ?_⟩)
  exact Rows.key_of_find? Account.name ha

/-! ### Numbers -/

theorem map_line_entriesFor {share : Amount} {utc : Moment} {line : Nat}
    {stamped : List (String × Uuid)} :
    (entriesFor event i share utc line stamped).map (·.line) =
      (List.range stamped.length).map fun k => Int.ofNat (line + k) := by
  induction stamped generalizing line with
  | nil => rfl
  | cons first rest ih =>
    rw [entriesFor, List.map_cons, ih, List.length_cons, List.range_succ_eq_map, List.map_cons,
      List.map_map]
    congr 1
    refine List.map_congr_left fun k _ => ?_
    show Int.ofNat (line + 1 + k) = Int.ofNat (line + (k + 1))
    rw [Nat.add_assoc, Nat.add_comm 1 k]

theorem Records.numbered (h : s.Records event i) :
    (s.eventEntries event).map (·.line) =
      (List.range (s.eventEntries event).length).map Int.ofNat := by
  obtain ⟨utc, stamped, -, hentries⟩ := h
  rw [hentries, map_line_entriesFor, length_entriesFor]
  simp only [Nat.zero_add]

theorem Records.alike (h : s.Records event i) :
    ∀ e ∈ s.eventEntries event, ∀ o ∈ s.eventEntries event,
      e.source = o.source ∧ e.kind = o.kind ∧ e.amount = o.amount ∧
        e.recordedAt = o.recordedAt := by
  obtain ⟨utc, stamped, -, hentries⟩ := h
  rw [hentries]
  intro e he o ho
  obtain ⟨-, hkind, hsource, hamount, htime⟩ := shared_of_mem_entriesFor he
  obtain ⟨-, hkind', hsource', hamount', htime'⟩ := shared_of_mem_entriesFor ho
  exact ⟨hsource.trans hsource'.symm, hkind.trans hkind'.symm, hamount.trans hamount'.symm,
    htime.trans htime'.symm⟩

theorem Records.destinations (h : s.Records event i) :
    (s.eventEntries event).map (·.destination) = i.destinations := by
  obtain ⟨utc, stamped, hstamped, hentries⟩ := h
  rw [hentries, map_destination_entriesFor, hstamped]

/-! ### Growth -/

theorem Grows.trans {u : Store} (first : s.Grows t) (second : t.Grows u) : s.Grows u := by
  obtain ⟨rows, ht, hnew⟩ := first
  obtain ⟨more, hu, hnewer⟩ := second
  refine ⟨rows ++ more, by rw [hu, ht, List.append_assoc], fun row hrow e he => ?_⟩
  rcases List.mem_append.mp hrow with hrow | hrow
  · exact hnew row hrow e he
  · exact hnewer row hrow e (ht ▸ List.mem_append_left _ he)

/-- Whether direct transfers have one entry. -/
def DirectAlone (s : Store) : Prop :=
  ∀ e ∈ s.entries, e.kind = .known .direct → (s.eventEntries e.event).length = 1

theorem directAlone_congr (same : t.entries = s.entries) (h : s.DirectAlone) : t.DirectAlone := by
  unfold DirectAlone eventEntries
  rw [same]
  exact h

theorem directAlone_transferred {desk : Desk} {minimum : Amount} {except : Option Uuid}
    {utc : Moment} (hj : s.Journaled) (pays : desk.CanPay s i minimum except utc)
    (single : i.kind = .direct → i.destinations.length = 1) (h : s.DirectAlone) :
    (s.transferred i (desk.rowsFor i utc)).DirectAlone := by
  intro e he direct
  rw [entries_transferred, List.mem_append] at he
  rcases he with he | he
  · rw [(grows_transferred hj pays).eventEntries he]
    exact h e he direct
  · obtain ⟨hevent, hkind, -⟩ := shared_of_mem_entriesFor he
    rw [hevent, (records_transferred hj pays).length]
    exact single (Stored.known.inj (hkind.symm.trans direct))

end Ledger.Store

/-! ### What is asked for -/

/-- What commands make of their arguments: a transfer to one account, or to the members of a role
without its author. -/
inductive Transfer.Intent.IsTip : Intent → Prop
  | account (author recipient : String) (amount : Amount) :
      IsTip ⟨author, [recipient], amount, .direct⟩
  | role (author : String) (members : List String) (amount : Amount) :
      IsTip ⟨author, Drop.eligible members author, amount, .role⟩

theorem Transfer.Intent.IsTip.single {i : Intent} (h : i.IsTip) (direct : i.kind = .direct) :
    i.destinations.length = 1 := by
  cases h with
  | account => rfl
  | role => cases direct

/-- Whatever a command pays is a tip of this kind. -/
theorem Tipping.decides_tip {t : Tipping} {W : World} (honest : t.execute = Ledger.execute)
    (mentions : W.Mentions) {author channel : String} {amount : Amount} :
    (∀ recipient, (t.tipAccount author channel recipient amount).Decides W Call.IsMessage
      fun k tip => ∃ i : Transfer.Intent, i.IsTip ∧ Pays i k tip) ∧
    ∀ role, (t.tipRole author channel role amount).Decides W Call.IsMessage
      fun k tip => ∃ i : Transfer.Intent, i.IsTip ∧ Pays i k tip := by
  constructor
  · exact fun recipient σ acts r τ h goes => (decides_tipAccount honest mentions h goes).imp
      fun k tip pays => ⟨_, .account author recipient amount, pays⟩
  · refine fun role σ acts r τ h goes => (decides_tipRole honest mentions h goes).imp
      fun k tip pays => ?_
    obtain ⟨members, pays⟩ := pays
    exact ⟨_, .role author members amount, pays⟩

namespace State
variable {σ τ : State}

/-- The states that commands, sweepers and the operator's tool lead to: of all runs, those whose tips
are what commands make of their arguments. -/
inductive Commanded : State → Prop
  | start : Commanded .start
  | perform {σ : State} (h : σ.Commanded) (deed : Deed) (operation : String) (desk : Desk)
      (allowed : deed.Allowed σ.history) (asked : ∀ i minimum, deed = .tip i minimum → i.IsTip) :
      Commanded (σ.perform deed operation desk)

theorem Commanded.reachable (h : σ.Commanded) : σ.Reachable := by
  induction h with
  | start => exact .refl
  | perform _ deed operation desk allowed _ ih => exact ih.perform deed operation desk allowed

theorem directAlone_of_quiet (h : Relation.ReflTransGen Quiet σ τ) (alone : σ.store.DirectAlone) :
    τ.store.DirectAlone := by
  induction h with
  | refl => exact alone
  | tail _ quiet ih => exact Store.directAlone_congr quiet.2 ih

/-- A unit of work that is kept leaves direct transfers with one entry each. -/
theorem directAlone_of_gives {deed : Deed} {marks : List Mark} {desk after : Desk}
    (h : σ.Reached) (allowed : deed.Allowed σ.history)
    (asked : ∀ i minimum, deed = .tip i minimum → i.IsTip)
    (hgives : deed.work.Gives (σ.begun desk) marks after) (alone : σ.store.DirectAlone) :
    ∃ t, after.Holds t ∧ t.DirectAlone := by
  have hbegun := σ.holds_begun desk
  cases deed with
  | tip i minimum =>
    simp only [Deed.work, Work.gives_bind, execute_gives, Work.gives_pure] at hgives
    obtain ⟨_, _, ⟨t, utc, ht, pays, -, rfl⟩, rfl, rfl⟩ := hgives
    obtain rfl := hbegun.unique ht
    exact ⟨_, ht.afterTransfer _ _,
      Store.directAlone_transferred h.journaled pays (asked i minimum rfl).single alone⟩
  | payOut sweeper claimed participants =>
    obtain ⟨hexecute, -⟩ := allowed
    simp only [Deed.work, Work.gives_bind, payOut_gives hexecute, Work.gives_pure] at hgives
    obtain ⟨_, _, ⟨t, utc, row, ht, pays, -, -, -, rfl⟩, rfl, rfl⟩ := hgives
    obtain rfl := hbegun.unique ht
    have htransferred := Store.directAlone_transferred h.journaled pays
      (fun direct : Transfer.Kind.drop = .direct => absurd direct (by decide)) alone
    exact ⟨_, (ht.afterTransfer _ _).keep _, Store.directAlone_congr rfl htransferred⟩
  | _ =>
    obtain ⟨t, ht, hquiet⟩ : ∃ t, after.Holds t ∧
        Relation.ReflTransGen Quiet σ ⟨t, σ.history ++ marks⟩ := quiet_of_gives id hbegun hgives
    exact ⟨t, ht, directAlone_of_quiet hquiet alone⟩

theorem Commanded.directAlone (h : σ.Commanded) : σ.store.DirectAlone := by
  induction h with
  | start => exact fun _ he => absurd he List.not_mem_nil
  | @perform σ before deed operation desk allowed asked ih =>
    rcases σ.perform_cases deed operation desk with hsame | ⟨marks, after, hgives, hleft⟩
    · rw [hsame]
      exact ih
    · obtain ⟨t, ht, halone⟩ :=
        directAlone_of_gives before.reachable.reached allowed asked hgives ih
      rw [hleft, ht.tables, Option.getD_some]
      exact halone

/-! ### What entries refer to -/

/-- An account that is there stays. -/
theorem there_change (change : Change σ τ) {name : String}
    (there : (σ.store.account? name).isSome) : (τ.store.account? name).isSome := by
  cases change with
  | opened =>
    rw [Store.account?_withAccount]
    split
    · rfl
    · exact there
  | set same =>
    rw [Store.account?_updateAccount _ _ _ fun a => (same a).1]
    split
    · next heq => rw [Option.isSome_map, ← heq, there]
    · exact there
  | deposited =>
    rw [Store.account?_credit]
    split
    · next heq => rw [Option.isSome_map, ← heq, there]
    · exact there
  | tipped =>
    rw [Store.isSome_account?_transferred, there, Bool.or_true]
  | paidOut =>
    rw [Store.account?_paidOut, Store.isSome_account?_transferred, there, Bool.or_true]
  | created | claimed | closed => exact there

/-- The accounts of every entry are there. -/
theorem Reached.accounted (h : σ.Reached) :
    ∀ e ∈ σ.store.entries,
      (σ.store.account? e.source).isSome ∧ (σ.store.account? e.destination).isSome := by
  have hnew {s : Store} {desk : Desk} {i : Transfer.Intent} {minimum : Amount}
      {except : Option Uuid} {utc : Moment} (pays : desk.CanPay s i minimum except utc) :
      ∀ e ∈ desk.rowsFor i utc,
        ((s.transferred i (desk.rowsFor i utc)).account? e.source).isSome ∧
          ((s.transferred i (desk.rowsFor i utc)).account? e.destination).isSome :=
    pays.admitted.2.2
  induction h with
  | refl => exact fun _ he => absurd he List.not_mem_nil
  | @tail σ τ _ change ih =>
    intro e he
    -- Old entries keep their accounts, new ones were admitted with theirs.
    have hold (he : e ∈ σ.store.entries) :=
      And.intro (there_change change (ih e he).1) (there_change change (ih e he).2)
    cases change with
    | opened => exact hold (by rwa [Store.entries_withAccount] at he)
    | set | deposited | created | claimed | closed => exact hold he
    | tipped tip pays =>
      rw [Store.entries_transferred, List.mem_append] at he
      exact he.elim hold (hnew pays e)
    | paidOut given pays =>
      rw [Store.entries_paidOut, List.mem_append] at he
      exact he.elim hold (hnew pays e)

theorem grows_of_changes (h : σ.Reached) (more : Changes σ τ) : σ.store.Grows τ.store := by
  induction more with
  | refl => exact .of_same rfl
  | tail before change ih =>
    exact ih.trans (grows_change (Relation.ReflTransGen.trans h before) change)

/-- The entries of an event are those of the transfer that it records. -/
theorem Commanded.isWhole (h : σ.Commanded) (event : Uuid) : σ.store.IsWhole event := by
  have hreached := h.reachable.reached
  have hmem {e : Entry} (he : e ∈ σ.store.eventEntries event) :
      e ∈ σ.store.entries ∧ e.event = event :=
    ⟨(List.mem_filter.mp he).1, by simpa using (List.mem_filter.mp he).2⟩
  have hrecords {e : Entry} (he : e ∈ σ.store.eventEntries event) :
      ∃ i, i.IsProper ∧ σ.store.Records event i := by
    obtain ⟨hentry, rfl⟩ := hmem he
    exact hreached.journaled e hentry
  have hnumbered : (σ.store.eventEntries event).map (·.line) =
      (List.range (σ.store.eventEntries event).length).map Int.ofNat := by
    cases hentries : σ.store.eventEntries event with
    | nil => rfl
    | cons e rest =>
      obtain ⟨i, -, records⟩ := hrecords (hentries ▸ List.mem_cons_self)
      exact hentries ▸ records.numbered
  have hdifferent : ((σ.store.eventEntries event).map (·.destination)).Nodup := by
    cases hentries : σ.store.eventEntries event with
    | nil => exact List.nodup_nil
    | cons e rest =>
      obtain ⟨i, proper, records⟩ := hrecords (hentries ▸ List.mem_cons_self)
      rw [← hentries, records.destinations]
      exact proper.different
  refine ⟨hnumbered, fun e he => ?_, hdifferent, fun e he o ho heq => ?_, fun e he direct => ?_,
    fun e he => ?_⟩
  · obtain ⟨i, -, records⟩ := hrecords he
    exact records.alike e he
  · obtain ⟨i, proper, records⟩ := hrecords he
    have hdestination : o.destination ∈ i.destinations :=
      records.destinations ▸ List.mem_map_of_mem ho
    rw [← heq, (records.shared e he).2.1] at hdestination
    exact proper.apart hdestination
  · obtain ⟨hentry, rfl⟩ := hmem he
    exact h.directAlone e hentry direct
  · obtain ⟨hsource, hdestination⟩ := hreached.accounted e (hmem he).1
    exact ⟨Store.hasOne hreached.namesDiffer hsource, Store.hasOne hreached.namesDiffer hdestination⟩

/-- In every state that commands, sweepers and the operator's tool lead to, the entries of each event
make up one transfer; and whatever happens later, all of them stay as they are and none joins
them. -/
theorem events_whole_for_good (h : σ.Commanded) :
    (∀ event, σ.store.IsWhole event) ∧ ∀ τ, Run σ τ → σ.store.Grows τ.store :=
  ⟨h.isWhole, fun _ more => grows_of_changes h.reachable.reached more.changes⟩

end State

namespace Sample

theorem commanded_tipped : tipped.Commanded := by
  have hfunded : funded.Commanded :=
    .perform .start (.deposit (.text "alice") ⟨10⟩) "deposit" (desk 0) trivial nofun
  refine .perform hfunded (.tip intent ⟨1⟩) "direct_tip" (desk 1) nofun fun i minimum heq => ?_
  obtain ⟨rfl, -⟩ := Deed.tip.inj heq
  exact .account "alice" "bob" ⟨3⟩

/-- Carol deposits five units after Alice has tipped Bob. -/
def enriched : State := tipped.perform (.deposit (.text "carol") ⟨5⟩) "deposit" (desk 3)

end Sample

/-- Alice's tip is one entry, and stays the only one of its event. -/
theorem State.sample_events_whole :
    (Sample.tipped.store.eventEntries (.ofNat 1)).map (·.destination) = ["bob"] ∧
      Sample.tipped.store.IsWhole (.ofNat 1) ∧ Sample.tipped.store.Grows Sample.enriched.store := by
  have hpays := (Tipping.pays_of_keeps Sample.reachable_funded.reached Sample.keeps_tipped
    "direct_tip" Sample.tipReport).1
  have hlater : State.Run Sample.tipped Sample.enriched :=
    .single (.perform Sample.tipped (.deposit (.text "carol") ⟨5⟩) "deposit" (Sample.desk 3) trivial)
  obtain ⟨whole, grows⟩ := State.events_whole_for_good Sample.commanded_tipped
  exact ⟨hpays.recorded.destinations, whole _, grows _ hlater⟩

end TipJar
