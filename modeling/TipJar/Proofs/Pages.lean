import Mathlib.Data.List.Pairwise
import Mathlib.Data.List.TakeWhile
import TipJar.Ledger.Queries
import TipJar.Proofs.Audit
import TipJar.Proofs.Executions
import TipJar.Proofs.Queues

/-! Reading the journal.

Entries are told by when they were recorded, then by their event, then by their
number. Nothing is lost or told twice in a page after a page, because no two entries
agree in all of that; the entries of one event stand together, because they were
recorded at one moment; and what an account sent and what it received are different
entries, because nobody pays themselves. None of it is a matter of the queries: it is
what the writers keep. -/
namespace TipJar
open Ledger

namespace Ledger

/-- Whether an entry is told before another one. -/
def Entry.Before (a b : Entry) : Prop :=
  a.recordedAt.instant < b.recordedAt.instant ∨ a.recordedAt.instant = b.recordedAt.instant ∧
    (a.event.value < b.event.value ∨ a.event.value = b.event.value ∧ a.line < b.line)

/-- Whether entries of one event stand together: what is between two of them is of it as well. -/
def Together (rows : List Entry) : Prop :=
  ∀ before a between b after, rows = before ++ a :: (between ++ b :: after) →
    a.event = b.event → ∀ c ∈ between, c.event = a.event

/-- What is kept of entries: no two of them clash, those of one event were recorded at one moment,
their kinds are known, and none goes from an account to itself. -/
structure Store.IsLedger (s : Store) : Prop where
  different : s.entries.Pairwise fun a b => ¬a.clashes b
  timed : ∀ a ∈ s.entries, ∀ b ∈ s.entries, a.event = b.event → a.recordedAt = b.recordedAt
  known : ∀ e ∈ s.entries, ∃ kind, e.kind = .known kind
  apart : ∀ e ∈ s.entries, e.source ≠ e.destination

/-! ### What the writers keep -/

namespace Store
variable {s : Store} {i : Transfer.Intent}

theorem different_transferred {desk : Desk} {minimum : Amount} {except : Option Uuid}
    {utc : Moment} (h : s.entries.Pairwise fun a b => ¬a.clashes b)
    (pays : desk.CanPay s i minimum except utc) :
    (s.transferred i (desk.rowsFor i utc)).entries.Pairwise fun a b => ¬a.clashes b := by
  obtain ⟨hrows, hold, -⟩ := pays.admitted
  rw [entries_debitedAndCredited] at hold
  rw [entries_transferred]
  exact List.pairwise_append.mpr ⟨h, hrows, fun e he row hrow => hold row hrow e he⟩

/-- An entry stands under its event as the transfer has written it. -/
theorem Records.mem {e : Entry} (h : s.Records e.event i) (he : e ∈ s.entries) :
    ∃ utc stamped, stamped.map (·.1) = i.destinations ∧
      (∀ a ∈ s.entries, a.event = e.event →
        a ∈ entriesFor e.event i i.split.share utc 0 stamped) ∧
      e ∈ entriesFor e.event i i.split.share utc 0 stamped := by
  obtain ⟨utc, stamped, hstamped, hentries⟩ := h
  have hall (a : Entry) (ha : a ∈ s.entries) (hevent : a.event = e.event) :
      a ∈ entriesFor e.event i i.split.share utc 0 stamped := by
    rw [← hentries]
    exact List.mem_filter.mpr ⟨ha, by simpa using hevent⟩
  exact ⟨utc, stamped, hstamped, hall, hall e he rfl⟩

end Store
end Ledger

namespace State
variable {σ : State}

theorem Reached.different (h : σ.Reached) :
    σ.store.entries.Pairwise fun a b => ¬a.clashes b := by
  induction h with
  | refl => exact .nil
  | tail _ change ih =>
    cases change with
    | opened => exact (Store.entries_withAccount _ _).symm ▸ ih
    | set | deposited | created | claimed | closed => exact ih
    | tipped tip pays => exact Store.different_transferred ih pays
    | paidOut given pays => exact Store.different_transferred ih pays

theorem Reached.isLedger (h : σ.Reached) : σ.store.IsLedger where
  different := h.different
  timed a ha b hb hevent := by
    obtain ⟨i, -, hrecords⟩ := h.journaled b hb
    obtain ⟨utc, stamped, -, hall, hmem⟩ := hrecords.mem hb
    have hutc := (shared_of_mem_entriesFor hmem).2.2.2.2
    exact (shared_of_mem_entriesFor (hall a ha hevent)).2.2.2.2.trans hutc.symm
  known e he := by
    obtain ⟨i, -, hrecords⟩ := h.journaled e he
    obtain ⟨_, _, -, -, hmem⟩ := hrecords.mem he
    exact ⟨i.kind, (shared_of_mem_entriesFor hmem).2.1⟩
  apart e he := by
    obtain ⟨i, proper, hrecords⟩ := h.journaled e he
    obtain ⟨_, stamped, hstamped, -, hmem⟩ := hrecords.mem he
    have hdestination : e.destination ∈ i.destinations := by
      rw [← hstamped, ← map_destination_entriesFor]
      exact List.mem_map_of_mem hmem
    rw [(shared_of_mem_entriesFor hmem).2.2.1]
    exact fun hsame => proper.apart (hsame ▸ hdestination)

end State

/-! ### Entries in their order -/

namespace Ledger
namespace Store
variable {s : Store}

instance transCmp_entryOrder : Std.TransCmp entryOrder :=
  inferInstanceAs (Std.TransCmp (compareLex (compareOn fun e : Entry => e.recordedAt.instant)
    (compareLex (compareOn fun e : Entry => e.event.value) (compareOn fun e : Entry => e.line))))

/-- Whether rows are the entries of some kind: each of them once, in their order, and those of one
event together. -/
structure Lists (s : Store) (wanted : Entry → Bool) (rows : List Entry) : Prop where
  perm : rows.Perm (s.entries.filter wanted)
  ordered : rows.Pairwise Entry.Before
  together : Together rows

theorem before_of_entryOrder {a b : Entry} (h : (entryOrder a b).isLE = true)
    (different : ¬a.clashes b) : a.Before b := by
  refine (isLE_compare_then.mp h).imp_right fun ⟨htime, h⟩ => ⟨htime, ?_⟩
  refine (isLE_compare_then.mp h).imp_right fun ⟨hevent, h⟩ => ⟨hevent, ?_⟩
  refine lt_of_le_of_ne (Int.isLE_compare.mp h) fun hline => different ?_
  simp [Entry.clashes, Uuid.eq_of_value hevent, hline]

theorem not_clashes_symm {a b : Entry} (h : ¬a.clashes b) : ¬b.clashes a := by
  simp only [Entry.clashes, Bool.or_eq_true, Bool.and_eq_true, beq_iff_eq] at h ⊢
  exact fun hba => h (hba.imp Eq.symm fun hba => ⟨hba.1.symm, hba.2.symm⟩)

/-- Entries of one event were recorded at one moment, so no others come between them. -/
theorem together_of_ordered (h : s.IsLedger) {rows : List Entry}
    (there : ∀ e ∈ rows, e ∈ s.entries) (ordered : rows.Pairwise Entry.Before) :
    Together rows := by
  rintro before a between b after rfl hevent c hc
  obtain ⟨-, hrest, -⟩ := List.pairwise_append.mp ordered
  obtain ⟨ha, hrest⟩ := List.pairwise_cons.mp hrest
  obtain ⟨-, -, hbetween⟩ := List.pairwise_append.mp hrest
  have htime : a.recordedAt = b.recordedAt :=
    h.timed a (there a (by simp)) b (there b (by simp)) hevent
  have hac := ha c (List.mem_append_left _ hc)
  have hcb := hbetween c hc b List.mem_cons_self
  unfold Entry.Before at hac hcb
  rw [← htime, ← hevent] at hcb
  exact Uuid.eq_of_value (by omega)

/-- Entries that are picked and sorted are told as they should be. -/
theorem lists_sortedBy (h : s.IsLedger) (wanted : Entry → Bool) :
    s.Lists wanted (sortedBy entryOrder (s.entries.filter wanted)) := by
  have hperm := perm_sortedBy entryOrder (s.entries.filter wanted)
  have hdifferent := hperm.symm.pairwise (h.different.sublist List.filter_sublist) not_clashes_symm
  have hsorted : (sortedBy entryOrder (s.entries.filter wanted)).Pairwise
      fun a b => (entryOrder a b).isLE = true := pairwise_sortedBy _
  have ordered := (hsorted.and hdifferent).imp fun {a b} h => before_of_entryOrder h.1 h.2
  refine ⟨hperm, ordered, together_of_ordered h (fun e he => ?_) ordered⟩
  exact (List.mem_filter.mp (hperm.mem_iff.mp he)).1

/-! ### Event after event -/

/-- Rows that stand together, from some place on. -/
theorem together_suffix {front rows : List Entry} (h : Together (front ++ rows)) :
    Together rows := by
  rintro before a between b after rfl
  exact h (front ++ before) a between b after (List.append_assoc ..).symm

/-- The rows of the first event are at the front. -/
theorem together_cons {a : Entry} {rows : List Entry} (h : Together (a :: rows)) :
    ∃ more others, rows = more ++ others ∧ (∀ c ∈ more, c.event = a.event) ∧
      ∀ c ∈ others, c.event ≠ a.event := by
  refine ⟨rows.takeWhile (·.event == a.event), rows.dropWhile (·.event == a.event),
    List.takeWhile_append_dropWhile.symm, fun c hc => by simpa using List.mem_takeWhile_imp hc,
    fun c hc hevent => ?_⟩
  cases hothers : rows.dropWhile (·.event == a.event) with
  | nil =>
    rw [hothers] at hc
    cases hc
  | cons first rest =>
    have hfirst : first.event ≠ a.event := by
      have hnone : rows.dropWhile (·.event == a.event) ≠ [] := by simp [hothers]
      simpa [hothers] using List.head_dropWhile_not (fun e : Entry => e.event == a.event) hnone
    rw [hothers] at hc
    rcases List.mem_cons.mp hc with rfl | hc
    · exact hfirst hevent
    -- The first row of another event would stand between two of this one.
    obtain ⟨front, back, rfl⟩ := List.append_of_mem hc
    refine hfirst (h [] a (rows.takeWhile (·.event == a.event) ++ first :: front) c back ?_
      hevent.symm first (by simp))
    rw [List.nil_append, List.append_assoc, List.cons_append, ← hothers,
      List.takeWhile_append_dropWhile]

/-- The entries of each event, one event after the other as they first appear, are all of them. -/
theorem flatMap_events {rows : List Entry} (h : Together rows) :
    (rows.map (·.event)).eraseDups.flatMap (fun event => rows.filter (·.event == event)) =
      rows := by
  induction hlength : rows.length using Nat.strong_induction_on generalizing rows with
  | _ n ih =>
  cases rows with
  | nil => rfl
  | cons a rest =>
    obtain ⟨more, others, rfl, hmore, hothers⟩ := together_cons h
    have hrest : Together others := together_suffix (show Together ((a :: more) ++ others) from h)
    have hshorter : others.length < n := by
      rw [← hlength, List.length_cons, List.length_append]
      omega
    have hevents : ((more ++ others).map (·.event)).filter (fun event => !event == a.event) =
        others.map (·.event) := by
      rw [List.map_append, List.filter_append, List.filter_eq_nil_iff.mpr, List.nil_append,
        List.filter_eq_self.mpr]
      · simpa using hothers
      · simpa using hmore
    have hfirst : (a :: (more ++ others)).filter (·.event == a.event) = a :: more := by
      rw [List.filter_cons_of_pos (by simp), List.filter_append, List.filter_eq_self.mpr,
        List.filter_eq_nil_iff.mpr, List.append_nil]
      · simpa using hothers
      · simpa using hmore
    rw [List.map_cons, List.eraseDups_cons, hevents, List.flatMap_cons, hfirst]
    refine congrArg (a :: more ++ ·) (Eq.trans (List.flatMap_congr fun event hevent => ?_)
      (ih _ hshorter hrest rfl))
    -- The events that are left are not the first one.
    obtain ⟨c, hc, rfl⟩ := List.mem_map.mp (List.mem_eraseDups.mp hevent)
    rw [← List.cons_append, List.filter_append, List.filter_eq_nil_iff.mpr, List.nil_append]
    intro x hx
    have hx : x.event = a.event := (List.mem_cons.mp hx).elim (· ▸ rfl) (hmore x)
    simpa [hx] using Ne.symm (hothers c hc)

theorem IsLedger.eq_of_clash (h : s.IsLedger) {a b : Entry} (ha : a ∈ s.entries)
    (hb : b ∈ s.entries) (clash : a.clashes b = true) : a = b := by
  by_contra hne
  have : Std.Symm fun a b : Entry => ¬a.clashes b := ⟨fun _ _ => not_clashes_symm⟩
  exact h.different.forall ha hb hne clash

/-- The entries of an event are those of it among all, in the same order. -/
theorem entriesOf_eq (h : s.IsLedger) {all : List Entry} (lists : s.Lists (fun _ => true) all)
    (event : Uuid) : s.entriesOf event = all.filter (·.event == event) := by
  have hperm := perm_sortedBy (fun a b => compare a.line b.line)
    (s.entries.filter (·.event == event))
  have hall : (all.filter (·.event == event)).Perm (s.entries.filter (·.event == event)) := by
    have hfilter := lists.perm.filter (·.event == event)
    rwa [List.filter_true] at hfilter
  have hmem {rows : List Entry} (hrows : rows.Perm (s.entries.filter (·.event == event)))
      {e : Entry} (he : e ∈ rows) : e ∈ s.entries ∧ e.event = event := by
    simpa using hrows.mem_iff.mp he
  have : Std.TransCmp fun a b : Entry => compare a.line b.line :=
    inferInstanceAs (Std.TransCmp (compareOn fun e : Entry => e.line))
  have hsorted : (s.entriesOf event).Pairwise fun a b => a.line ≤ b.line :=
    (pairwise_sortedBy _).imp fun hab => Int.isLE_compare.mp hab
  have hordered : (all.filter (·.event == event)).Pairwise fun a b => a.line ≤ b.line := by
    refine List.Pairwise.imp_of_mem (fun {a b} ha hb hab => ?_)
      (lists.ordered.sublist List.filter_sublist)
    obtain ⟨ha, hevent⟩ := hmem hall ha
    obtain ⟨hb, hsame⟩ := hmem hall hb
    have htime := h.timed a ha b hb (hevent.trans hsame.symm)
    unfold Entry.Before at hab
    rw [htime, hevent, hsame] at hab
    omega
  refine (hperm.trans hall.symm).eq_of_pairwise (fun a b ha hb hab hba => ?_) hsorted hordered
  obtain ⟨ha, hevent⟩ := hmem hperm ha
  obtain ⟨hb, hsame⟩ := hmem hall hb
  refine h.eq_of_clash ha hb ?_
  simp [Entry.clashes, hevent, hsame, le_antisymm hab hba]

/-! ### Sums and counts -/

theorem sum_perm {xs ys : List Amount} (h : xs.Perm ys) : Amount.sum xs = Amount.sum ys := by
  ext
  rw [Amount.units_sum, Amount.units_sum]
  exact (h.map _).sum_eq

/-- Nobody pays themselves, so an entry of an account is sent or received, and not both. -/
theorem length_touching {es : List Entry} (apart : ∀ e ∈ es, e.source ≠ e.destination)
    (name : String) : (es.filter (·.touches name)).length =
      (es.filter (·.source == name)).length + (es.filter (·.destination == name)).length := by
  induction es with
  | nil => rfl
  | cons e rest ih =>
    obtain ⟨he, hrest⟩ := List.forall_mem_cons.mp apart
    have ih := ih hrest
    by_cases hsource : e.source = name
    · have hdestination : e.destination ≠ name := fun h => he (hsource.trans h.symm)
      simp [Entry.touches, hsource, hdestination] at ih ⊢
      omega
    · by_cases hdestination : e.destination = name
      · simp [Entry.touches, hsource, hdestination] at ih ⊢
        omega
      · simpa [Entry.touches, hsource, hdestination] using ih

/-- What an account sent and received is in its history, and nothing else is. -/
theorem flow_eq (h : s.IsLedger) {name : String} {rows : List Entry}
    (lists : s.Lists (·.touches name) rows) :
    s.flow name = ⟨Amount.sum ((rows.filter (·.source == name)).map (·.amount)),
      Amount.sum ((rows.filter (·.destination == name)).map (·.amount)), rows.length⟩ := by
  have hside (side : Entry → Bool) (touches : ∀ e, side e = true → e.touches name = true) :
      (rows.filter side).Perm (s.entries.filter side) := by
    refine (lists.perm.filter side).trans (.of_eq ?_)
    rw [List.filter_filter]
    refine List.filter_congr fun e _ => ?_
    cases hside : side e with
    | false => rfl
    | true => rw [touches e hside, Bool.true_and]
  have hsent := hside (·.source == name) fun e he => by simp_all [Entry.touches]
  have hreceived := hside (·.destination == name) fun e he => by simp_all [Entry.touches]
  rw [sum_perm (hsent.map _), sum_perm (hreceived.map _), lists.perm.length_eq,
    length_touching h.apart]
  rfl

/-- Pages of one size, one after the other, are what they are pages of. -/
theorem flatten_pages (rows : List Entry) (k m : Nat) :
    (List.range m).flatMap (fun n => (rows.drop (n * k)).take k) = rows.take (m * k) := by
  induction m with
  | zero => simp
  | succ m ih =>
    rw [List.range_succ, List.flatMap_append, ih, List.flatMap_singleton, ← List.take_add,
      Nat.succ_mul]

end Store

/-! ### The queries -/

/-- What is told of an account: its whole history, page by page if wanted, and sums and a number of
entries that agree with it. -/
structure Desk.TellsHistory (desk : Desk) (s : Store) (name : String) (rows : List Entry) :
    Prop where
  gives : (historyOf (.text name) none none).Gives desk rows desk
  lists : s.Lists (·.touches name) rows
  page : ∀ k n : Nat, (k : Int) ≤ columnMax → ((n * k : Nat) : Int) ≤ columnMax →
    (historyOf (.text name) (some k) (some (n * k : Nat))).Gives desk ((rows.drop (n * k)).take k)
      desk
  paged : ∀ k m : Nat, rows.length ≤ m * k →
    (List.range m).flatMap (fun n => (rows.drop (n * k)).take k) = rows
  flow : ∀ sent received : Amount,
    sent = Amount.sum ((rows.filter (·.source == name)).map (·.amount)) →
    received = Amount.sum ((rows.filter (·.destination == name)).map (·.amount)) →
    sent.units ≤ columnMax → received.units ≤ columnMax →
    (flowOf (.text name)).Gives desk ⟨sent, received, rows.length⟩ desk

/-- What is told of all entries: event after event, each line by line. -/
structure Desk.TellsEvents (desk : Desk) (s : Store) (all : List Entry) : Prop where
  gives : everyEntry.Gives desk all desk
  lists : s.Lists (fun _ => true) all
  event : ∀ event, (entriesOfEvent event).Gives desk (s.entriesOf event) desk
  joined : (all.map (·.event)).eraseDups.flatMap s.entriesOf = all

section Queries
variable {s : Store} {desk : Desk} {name : String}

theorem mapM_readEntry {rows : List Entry} (known : ∀ e ∈ rows, ∃ kind, e.kind = .known kind) :
    rows.mapM readEntry = .ok rows := by
  induction rows with
  | nil => rfl
  | cons e rest ih =>
    obtain ⟨⟨kind, hkind⟩, hrest⟩ := List.forall_mem_cons.mp known
    have he : readEntry e = .ok e := by
      unfold readEntry
      rw [hkind]
      rfl
    rw [List.mapM_cons, he, ih hrest]
    rfl

theorem shownEntries_gives (h : s.IsLedger) (hs : desk.Holds s) {ask : Store → List Entry}
    (there : ∀ e ∈ ask s, e ∈ s.entries) : (shownEntries ask).Gives desk (ask s) desk :=
  Work.gives_bind.mpr ⟨ask s, desk, Work.gives_read.mpr ⟨s, hs, rfl, rfl⟩,
    Work.gives_check.mpr ⟨mapM_readEntry fun e he => h.known e (there e he), rfl⟩⟩

theorem column_gives (hs : desk.Holds s) {k : Nat} (fits : (k : Int) ≤ columnMax) :
    (Work.column k).Gives desk ⟨⟩ desk :=
  Work.gives_column.mpr ⟨⟨s, hs⟩, natCast_fits.mpr fits, rfl⟩

theorem tellsHistory (h : s.IsLedger) (hs : desk.Holds s) (name : String) :
    desk.TellsHistory s name (s.history name none none) := by
  have lists : s.Lists (·.touches name) (s.history name none none) := s.lists_sortedBy h _
  have hthere : ∀ e ∈ s.history name none none, e ∈ s.entries := fun e he =>
    (List.mem_filter.mp (lists.perm.mem_iff.mp he)).1
  have hkey : (Work.check (lookupKey (.text name))).Gives desk (some name) desk :=
    Work.gives_check.mpr ⟨lookupKey_of_text rfl, rfl⟩
  refine ⟨Work.gives_bind.mpr ⟨_, desk, hkey, shownEntries_gives h hs hthere⟩, lists,
    fun k n hk hn => ?_, fun k m hm => ?_, fun sent received hsent hreceived hfits hfits' => ?_⟩
  · have hpage : s.history name (some k) (some (n * k : Nat)) =
        ((s.history name none none).drop (n * k)).take k := Store.limited_natCast k _
    rw [← hpage]
    refine Work.gives_bind.mpr ⟨_, desk, hkey, Work.gives_bind.mpr ⟨⟨⟩, desk, column_gives hs hk,
      Work.gives_bind.mpr ⟨⟨⟩, desk, column_gives hs hn, shownEntries_gives h hs fun e he => ?_⟩⟩⟩
    rw [hpage] at he
    exact hthere e (List.mem_of_mem_drop (List.mem_of_mem_take he))
  · rw [Store.flatten_pages, List.take_of_length_le hm]
  · have hflow : s.flow name = ⟨sent, received, (s.history name none none).length⟩ := by
      rw [hsent, hreceived]
      exact Store.flow_eq h lists
    have hsums : (summed [(s.flow name).sent, (s.flow name).received]).Gives desk ⟨⟩ desk := by
      unfold summed
      rw [hflow, if_pos (by simp [hfits, hfits'])]
      exact Work.gives_pure.mpr ⟨rfl, rfl⟩
    rw [← hflow]
    exact Work.gives_bind.mpr ⟨_, desk, hkey, Work.gives_bind.mpr ⟨_, desk,
      Work.gives_read.mpr ⟨s, hs, rfl, rfl⟩, Work.gives_bind.mpr ⟨⟨⟩, desk, hsums,
        Work.gives_pure.mpr ⟨rfl, rfl⟩⟩⟩⟩

theorem tellsEvents (h : s.IsLedger) (hs : desk.Holds s) :
    desk.TellsEvents s s.allEntries := by
  have lists : s.Lists (fun _ => true) s.allEntries := by
    have hlists := s.lists_sortedBy h fun _ => true
    rwa [List.filter_true] at hlists
  have hthere {rows : List Entry} {wanted : Entry → Bool}
      (hrows : rows.Perm (s.entries.filter wanted)) : ∀ e ∈ rows, e ∈ s.entries := fun e he =>
    (List.mem_filter.mp (hrows.mem_iff.mp he)).1
  refine ⟨shownEntries_gives h hs (hthere lists.perm), lists,
    fun event => shownEntries_gives h hs (hthere (Store.perm_sortedBy _ _)), ?_⟩
  rw [funext (Store.entriesOf_eq h lists)]
  exact Store.flatMap_events lists.together

end Queries
end Ledger

/-- In every reachable state, whoever asks for an account is told all its entries once, in order and
in pages of whatever size a query can count, with sums that agree if the store can form them; and
the events one after the other are all entries. -/
theorem State.ledger_told_whole {σ : State} (h : σ.Reachable) {desk : Desk}
    (hs : desk.Holds σ.store) :
    (∀ name, ∃ rows, desk.TellsHistory σ.store name rows) ∧
      ∃ all, desk.TellsEvents σ.store all :=
  have ledger := h.reached.isLedger
  ⟨fun name => ⟨_, tellsHistory ledger hs name⟩, _, tellsEvents ledger hs⟩

/-! ### All there is, to and fro

Alice has as many units as an account can, and gives them all to Bob, who gives them back. -/

namespace Sample

def most : Amount := ⟨0x7fffffffffffffff⟩

theorem named_alice : IsName "alice" := rfl

theorem named_bob : IsName "bob" := rfl

def allOf (source destination : String) : Transfer.Intent := ⟨source, [destination], most, .direct⟩

def giving (σ : State) (source destination : String) (next : Nat) : State :=
  σ.perform (.tip (allOf source destination) ⟨1⟩) "direct_tip" (desk next)

def rich : State := State.start.perform (.deposit (.text "alice") most) "deposit" (desk 0)

def gave : State := giving rich "alice" "bob" 0

def gaveAgain : State := giving (giving gave "bob" "alice" 2) "alice" "bob" 4

/-- A state in which an account has all there is, and no drop holds anything. -/
structure CanGive (σ : State) (source : String) (next : Nat) : Prop where
  reachable : σ.Reachable
  free : σ.store.drops = []
  balance : σ.store.balance source = most
  others : ∀ name, name ≠ source → σ.store.balance name = .zero
  numbered : Numbered σ.store next

/-- What giving leaves: the one who got it can give on, and the journal has one more entry. -/
theorem CanGive.given {σ : State} {source destination : String} {next : Nat}
    (h : CanGive σ source next) (named : IsName source) (namedToo : IsName destination)
    (apart : source ≠ destination) (room : next + 2 ≤ Uuid.count) :
    CanGive (giving σ source destination next) destination (next + 2) ∧
      (giving σ source destination next).store.entries =
        σ.store.entries ++ (desk next).rowsFor (allOf source destination) deadline := by
  have hheld : σ.store.held source none = .zero := by
    unfold Store.held Store.holding
    rw [h.free]
    rfl
  have hunits : (σ.store.balance source).units = most.units := congrArg Amount.units h.balance
  have hshare : (allOf source destination).shareUnits = most.units := Nat.div_one _
  have hcovered : (σ.store.held source none).units +
      (allOf source destination).shareUnits * 1 ≤ (σ.store.balance source).units := by
    rw [hheld, hshare, hunits, Amount.units_zero, Nat.zero_add, Nat.mul_one]
  have hleast : (⟨1⟩ : Amount) ≤ most := by decide
  have hfits : (most.units : Int) ≤ columnMax := by decide
  have counts : σ.store.Counts source none := ⟨hunits ▸ hfits, by rw [hheld]; decide⟩
  have proper : (allOf source destination).IsProper := ⟨List.cons_ne_nil _ _,
    List.nodup_singleton _, fun hmem => apart (List.mem_singleton.mp hmem)⟩
  have names : ∀ name ∈ [source, destination], IsName name :=
    List.forall_mem_cons.mpr ⟨named, List.forall_mem_singleton.mpr namedToo⟩
  have fresh := h.numbered.isFresh (Nat.le_refl next) room
  have hgiven : giving σ source destination next = ⟨σ.store.transferred (allOf source destination)
      ((desk next).rowsFor (allOf source destination) deadline), σ.history⟩ :=
    State.perform_tip ⟨proper, hleast, names, hcovered⟩ hfits counts (Moment.isStoredAs_self rfl)
      fresh "direct_tip"
  have hreachable : (giving σ source destination next).Reachable :=
    h.reachable.perform (.tip (allOf source destination) ⟨1⟩) _ _ nofun
  have transfers : σ.store.Transfers (σ.store.transferred (allOf source destination)
      ((desk next).rowsFor (allOf source destination) deadline)) (allOf source destination) _ :=
    transfers_transferred proper counts.balance (le_trans (Nat.le_add_left _ _) hcovered) fresh
  rw [hgiven] at hreachable ⊢
  refine ⟨⟨hreachable, (σ.store.drops_transferred _).trans h.free, ?_, fun name hother => ?_,
    h.numbered.transferred room⟩, σ.store.entries_transferred _⟩
  · have hnothing : (σ.store.balance destination).units = 0 :=
      congrArg Amount.units (h.others destination (Ne.symm apart))
    have gained := transfers.gained destination (List.mem_singleton.mpr rfl)
      (by rw [hnothing, hshare]; decide)
    rw [hnothing, hshare, Nat.zero_add] at gained
    exact Amount.ext gained
  · by_cases hsource : name = source
    · have lost : _ + (allOf source destination).shareUnits * 1 = (σ.store.balance source).units :=
        transfers.lost
      rw [hshare, hunits, Nat.mul_one] at lost
      rw [hsource]
      exact Amount.ext (Nat.add_eq_right.mp lost)
    · have hsame := transfers.others name (by simp [hsource, hother, allOf])
      rw [Store.balance, hsame]
      exact h.others name hsource

theorem canGive_rich : CanGive rich "alice" 0 where
  reachable := State.Reachable.perform .refl _ "deposit" (desk 0) trivial
  free := by decide +kernel
  balance := by decide +kernel
  others name hother := by
    have haccounts : rich.store.accounts = [⟨"alice", most, none, false⟩] := by decide +kernel
    rw [Store.balance, Store.account?, haccounts,
      List.find?_cons_of_neg (by simpa using hother.symm)]
    rfl
  numbered := numbered_of_nil (by decide +kernel) 0

theorem canGive_gave : CanGive gave "bob" 2 ∧
    gave.store.entries = (desk 0).rowsFor (allOf "alice" "bob") deadline := by
  have hnone : rich.store.entries = [] := by decide +kernel
  obtain ⟨hbob, hentries⟩ := canGive_rich.given named_alice named_bob (by decide) (by decide)
  rw [hnone] at hentries
  exact ⟨hbob, hentries⟩

theorem canGive_gaveAgain : CanGive gaveAgain "bob" 6 ∧
    gaveAgain.store.entries = (desk 0).rowsFor (allOf "alice" "bob") deadline ++
      (desk 2).rowsFor (allOf "bob" "alice") deadline ++
        (desk 4).rowsFor (allOf "alice" "bob") deadline := by
  obtain ⟨hbob, hfirst⟩ := canGive_gave
  obtain ⟨halice, hsecond⟩ := hbob.given named_bob named_alice (by decide) (by decide)
  obtain ⟨hlast, hthird⟩ := halice.given named_alice named_bob (by decide) (by decide)
  rw [hsecond, hfirst] at hthird
  exact ⟨hlast, hthird⟩

end Sample

/-- Alice is told the one entry that there is, and that she sent it. -/
theorem State.sample_told : ∃ rows,
    (Sample.gave.begun (Sample.desk 2)).TellsHistory Sample.gave.store "alice" rows ∧
      rows.length = 1 ∧
      (flowOf (.text "alice")).Gives (Sample.gave.begun (Sample.desk 2))
        ⟨Sample.most, .zero, 1⟩ (Sample.gave.begun (Sample.desk 2)) := by
  obtain ⟨rows, tells⟩ := (ledger_told_whole Sample.canGive_gave.1.reachable
    (Sample.gave.holds_begun (Sample.desk 2))).1 "alice"
  have hrows := tells.lists.perm
  rw [Sample.canGive_gave.2] at hrows
  have hone : rows = (Sample.desk 0).rowsFor (Sample.allOf "alice" "bob") Sample.deadline :=
    List.perm_singleton.mp hrows
  subst hone
  exact ⟨_, tells, rfl, tells.flow _ _ rfl rfl (by decide) (by decide)⟩

/-- A page that is larger than a query can count is not given, and neither are sums that the store
cannot form: Alice has sent more than 64 bits hold, although no balance was ever that large. -/
theorem State.ledger_not_always_told :
    Sample.gaveAgain.Reachable ∧
      (∀ rows after, ¬(historyOf (.text "alice") (some 0x8000000000000000) (some 0)).Gives
        (Sample.gaveAgain.begun (Sample.desk 6)) rows after) ∧
      ∀ flow after, ¬(flowOf (.text "alice")).Gives (Sample.gaveAgain.begun (Sample.desk 6))
        flow after := by
  obtain ⟨can, hentries⟩ := Sample.canGive_gaveAgain
  have hkey {key : Option String} {desk after : Desk}
      (h : (Work.check (lookupKey (.text "alice"))).Gives desk key after) :
      key = some "alice" ∧ after = desk := by
    obtain ⟨hkey, rfl⟩ := Work.gives_check.mp h
    exact ⟨(Except.ok.inj hkey).symm, rfl⟩
  refine ⟨can.reachable, fun rows after h => ?_, fun flow after h => ?_⟩
  · obtain ⟨_, _, hlooked, h⟩ := Work.gives_bind.mp h
    obtain ⟨rfl, rfl⟩ := hkey hlooked
    obtain ⟨_, _, hcolumn, -⟩ := Work.gives_bind.mp h
    exact absurd (Work.gives_column.mp hcolumn).2.1.2 (by decide)
  · obtain ⟨_, _, hlooked, h⟩ := Work.gives_bind.mp h
    obtain ⟨rfl, rfl⟩ := hkey hlooked
    obtain ⟨found, _, hread, h⟩ := Work.gives_bind.mp h
    obtain ⟨s, hs, rfl, rfl⟩ := Work.gives_read.mp hread
    obtain rfl := (Sample.gaveAgain.holds_begun _).unique hs
    obtain ⟨_, _, hsums, -⟩ := Work.gives_bind.mp h
    have hlarge : ¬∀ sum ∈ [(Sample.gaveAgain.store.flow "alice").sent,
        (Sample.gaveAgain.store.flow "alice").received], (sum.units : Int) ≤ columnMax := by
      unfold Store.flow
      rw [hentries]
      decide
    unfold summed at hsums
    rw [if_neg hlarge] at hsums
    exact Work.gives_storeFails hsums

end TipJar
