import TipJar.Proofs.Lifetimes

/-! The journal, and what it says about drops.

Entries are only ever appended, a whole transfer at a time, under an event that no
entry had before. So what a transfer wrote can be read back from the journal for
good, and payments and drops cannot disagree: a settled drop names the event of its
payment, every payment of a drop is named by one settled drop, and a drop that ended
otherwise was never paid and never will be. -/
namespace TipJar
open Ledger

/-- Whether a transfer has destinations, all different, and none of them its source. -/
structure Transfer.Intent.IsProper (i : Intent) : Prop where
  some : i.destinations ≠ []
  different : i.destinations.Nodup
  apart : i.source ∉ i.destinations

theorem Ledger.Desk.CanPay.isProper {desk : Desk} {s : Store} {i : Transfer.Intent}
    {minimum : Amount} {except : Option Uuid} {utc : Moment}
    (pays : desk.CanPay s i minimum except utc) : i.IsProper :=
  have hcheck := Transfer.Intent.check_ok.mp pays.proper
  ⟨hcheck.1, hcheck.2.1, hcheck.2.2.1⟩

namespace Ledger.Store
variable {s t : Store} {i : Transfer.Intent} {event other : Uuid}

/-- The entries of an event. -/
def eventEntries (s : Store) (event : Uuid) : List Entry := s.entries.filter (·.event == event)

/-- Under the event stand the entries of the transfer, and no others. -/
def Records (s : Store) (event : Uuid) (i : Transfer.Intent) : Prop :=
  ∃ utc stamped, stamped.map (·.1) = i.destinations ∧
    s.eventEntries event = entriesFor event i i.split.share utc 0 stamped

/-- Every entry is one of a transfer. -/
def Journaled (s : Store) : Prop := ∀ e ∈ s.entries, ∃ i, i.IsProper ∧ s.Records e.event i

/-- A transfer has a first entry. -/
theorem Records.first (h : s.Records event i) (proper : i.IsProper) :
    ∃ e ∈ s.entries, e.event = event ∧ e.line = 0 := by
  obtain ⟨utc, stamped, hstamped, hentries⟩ := h
  cases stamped with
  | nil => exact absurd hstamped.symm proper.some
  | cons first rest =>
    have hmem : ∀ e ∈ entriesFor event i i.split.share utc 0 (first :: rest), e ∈ s.entries := by
      intro e he
      rw [← hentries] at he
      exact (List.mem_filter.mp he).1
    exact ⟨_, hmem _ List.mem_cons_self, rfl, rfl⟩

/-! ### What entries of a transfer amount to -/

theorem Records.length (h : s.Records event i) :
    (s.eventEntries event).length = i.destinations.length := by
  obtain ⟨utc, stamped, hstamped, hentries⟩ := h
  rw [hentries, length_entriesFor, ← hstamped, List.length_map]

theorem Records.shared (h : s.Records event i) :
    ∀ e ∈ s.eventEntries event,
      e.kind = .known i.kind ∧ e.source = i.source ∧ e.amount = i.split.share := by
  obtain ⟨utc, stamped, -, hentries⟩ := h
  intro e he
  rw [hentries] at he
  obtain ⟨-, hkind, hsource, hamount, -⟩ := shared_of_mem_entriesFor he
  exact ⟨hkind, hsource, hamount⟩

/-- All shares together are what moved. -/
theorem Records.sum (h : s.Records event i) :
    ((s.eventEntries event).map (·.amount.units)).sum = i.split.moved.units := by
  have hall : (s.eventEntries event).map (·.amount.units) =
      List.replicate (s.eventEntries event).length i.split.share.units := by
    refine List.eq_replicate_iff.mpr ⟨List.length_map _, fun n hn => ?_⟩
    obtain ⟨e, he, rfl⟩ := List.mem_map.mp hn
    rw [(h.shared e he).2.2]
  rw [hall, List.sum_replicate_nat, h.length, Nat.mul_comm]
  rfl

/-! ### Growth -/

/-- Entries were appended, all of them under events that were new. -/
def Grows (s t : Store) : Prop :=
  ∃ rows, t.entries = s.entries ++ rows ∧ ∀ row ∈ rows, ∀ e ∈ s.entries, e.event ≠ row.event

theorem Grows.of_same (h : t.entries = s.entries) : s.Grows t :=
  ⟨[], h.trans (List.append_nil _).symm, fun _ hrow => absurd hrow List.not_mem_nil⟩

/-- What stands under an event that has entries stays. -/
theorem Grows.eventEntries (h : s.Grows t) {e : Entry} (he : e ∈ s.entries) :
    t.eventEntries e.event = s.eventEntries e.event := by
  obtain ⟨rows, hentries, hnew⟩ := h
  unfold Store.eventEntries
  rw [hentries, List.filter_append]
  have hnone : rows.filter (·.event == e.event) = [] :=
    List.filter_eq_nil_iff.mpr fun row hrow => by simpa using (hnew row hrow e he).symm
  rw [hnone, List.append_nil]

theorem Grows.records (h : s.Grows t) (proper : i.IsProper) (hs : s.Records event i) :
    t.Records event i := by
  obtain ⟨e, he, rfl, -⟩ := hs.first proper
  obtain ⟨utc, stamped, hstamped, hentries⟩ := hs
  exact ⟨utc, stamped, hstamped, (h.eventEntries he).trans hentries⟩

section Transferred
variable {desk : Desk} {minimum : Amount} {except : Option Uuid} {utc : Moment}

theorem event_of_mem_rowsFor {row : Entry} (h : row ∈ desk.rowsFor i utc) :
    row.event = desk.ids desk.nextId := (shared_of_mem_entriesFor h).1

/-- The event of a transfer that is kept is new: its first entry would not be admitted otherwise. -/
theorem event_ne (hj : s.Journaled) (pays : desk.CanPay s i minimum except utc) :
    ∀ e ∈ s.entries, e.event ≠ desk.ids desk.nextId := by
  intro e he hevent
  obtain ⟨j, proper, hrecords⟩ := hj e he
  obtain ⟨first, hfirst, hsame, hline⟩ := hrecords.first proper
  have hrows : (desk.rowsFor i utc).map (·.destination) = i.destinations := by
    unfold Desk.rowsFor
    rw [map_destination_entriesFor, map_fst_stamp]
  cases hdestinations : i.destinations with
  | nil => exact absurd hdestinations pays.isProper.some
  | cons name rest =>
    have hmem : (⟨desk.ids (desk.nextId + 1), desk.ids desk.nextId, 0, .known i.kind, i.source,
        name, i.split.share, utc⟩ : Entry) ∈ desk.rowsFor i utc := by
      unfold Desk.rowsFor
      rw [hdestinations]
      exact List.mem_cons_self
    have hadmits := pays.admitted.2.1 _ hmem first
    rw [entries_debitedAndCredited] at hadmits
    refine hadmits hfirst ?_
    simp [Entry.clashes, hsame, hevent, hline]

theorem grows_transferred (hj : s.Journaled) (pays : desk.CanPay s i minimum except utc) :
    s.Grows (s.transferred i (desk.rowsFor i utc)) :=
  ⟨_, s.entries_transferred _, fun _ hrow e he =>
    event_of_mem_rowsFor hrow ▸ event_ne hj pays e he⟩

theorem records_transferred (hj : s.Journaled) (pays : desk.CanPay s i minimum except utc) :
    (s.transferred i (desk.rowsFor i utc)).Records (desk.ids desk.nextId) i := by
  refine ⟨utc, _, map_fst_stamp desk.ids (desk.nextId + 1) i.destinations, ?_⟩
  unfold eventEntries
  have hold : s.entries.filter (·.event == desk.ids desk.nextId) = [] :=
    List.filter_eq_nil_iff.mpr fun e he => by simpa using event_ne hj pays e he
  have hnew : (desk.rowsFor i utc).filter (·.event == desk.ids desk.nextId) = desk.rowsFor i utc :=
    List.filter_eq_self.mpr fun row hrow => by simpa using event_of_mem_rowsFor hrow
  rw [entries_transferred, List.filter_append, hold, hnew]
  rfl

/-- Growth by a transfer keeps every entry one of a transfer. -/
theorem journaled_transferred (hj : s.Journaled) (pays : desk.CanPay s i minimum except utc) :
    (s.transferred i (desk.rowsFor i utc)).Journaled := by
  intro e he
  rw [entries_transferred, List.mem_append] at he
  rcases he with he | he
  · obtain ⟨j, proper, hrecords⟩ := hj e he
    exact ⟨j, proper, (grows_transferred hj pays).records proper hrecords⟩
  · rw [event_of_mem_rowsFor he]
    exact ⟨i, pays.isProper, records_transferred hj pays⟩

end Transferred
end Ledger.Store

namespace State
variable {σ τ : State}

/-- Every entry is one of a transfer, in every run. -/
theorem Reached.journaled (h : σ.Reached) : σ.store.Journaled := by
  induction h with
  | refl => exact fun _ he => absurd he List.not_mem_nil
  | tail _ change ih =>
    cases change with
    | opened =>
      unfold Store.Journaled Store.Records Store.eventEntries
      rw [Store.entries_withAccount]
      exact ih
    | set | deposited | created | claimed | closed => exact ih
    | tipped tip pays => exact Store.journaled_transferred ih pays
    | paidOut given pays => exact Store.journaled_transferred ih pays

/-- The journal only grows. -/
theorem grows_change (h : σ.Reached) (change : Change σ τ) : σ.store.Grows τ.store := by
  cases change with
  | opened => exact .of_same (Store.entries_withAccount _ _)
  | set | deposited | created | claimed | closed => exact .of_same rfl
  | tipped tip pays => exact Store.grows_transferred h.journaled pays
  | paidOut given pays => exact Store.grows_transferred h.journaled pays

end State
end TipJar
