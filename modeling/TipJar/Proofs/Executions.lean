import TipJar.Proofs.Debits
import TipJar.Proofs.Entries
import TipJar.Proofs.Payability

/-! A transfer, from its request to its entries.

A transfer is looked at four times before it is kept: for its destinations, its
amount, the names of its accounts and the funds of its source. The checks are spread
over three pieces of work, but the first that fails is the one that is reported, and
nothing is left of a transfer that fails one. A transfer that passes all of them is
kept, and then amounts, shares and entries agree, however many destinations there are
and also where the amount is less than one unit for each. The source's balance and
holds have to fit their columns for that, and a destination gains its share exactly if
its column has room for it. -/
namespace TipJar
open Ledger

/-- The units that each destination of a transfer gets. -/
def Transfer.Intent.shareUnits (i : Intent) : Nat := i.amount.units / i.destinations.length

namespace Ledger

/-! ### What is looked at -/

namespace Store

/-- Whether a transfer passes every check. -/
structure Allows (s : Store) (i : Transfer.Intent) (minimum : Amount) (except : Option Uuid) :
    Prop where
  proper : i.IsProper
  least : minimum ≤ i.amount
  named : ∀ name ∈ i.source :: i.destinations, IsName name
  covered : (s.held i.source except).units + i.shareUnits * i.destinations.length ≤
    (s.balance i.source).units

/-- What a transfer is refused for: the first check that it fails. -/
inductive Refuses (s : Store) (i : Transfer.Intent) (minimum : Amount) (except : Option Uuid) :
    Refusal → Prop
  | nobody (none : i.destinations = []) :
      Refuses s i minimum except (.invalidSplit .noDestinations)
  | twice (some : i.destinations ≠ []) (repeated : ¬i.destinations.Nodup) :
      Refuses s i minimum except (.invalidSplit .duplicateDestinations)
  | itself (some : i.destinations ≠ []) (different : i.destinations.Nodup)
      (among : i.source ∈ i.destinations) :
      Refuses s i minimum except (.invalidSplit .sourceAmongDestinations)
  | tooLittle (proper : i.IsProper) (little : i.amount < minimum) :
      Refuses s i minimum except (.belowMinimum i.amount minimum)
  | unnamed {name : String} (why : Malformed) (proper : i.IsProper) (least : minimum ≤ i.amount)
      (party : name ∈ i.source :: i.destinations)
      (unnamed : checkName (.text name) = .error (.malformed why)) :
      Refuses s i minimum except (.malformed why)
  | uncovered (proper : i.IsProper) (least : minimum ≤ i.amount)
      (named : ∀ name ∈ i.source :: i.destinations, IsName name)
      (short : (s.balance i.source).units <
        (s.held i.source except).units + i.shareUnits * i.destinations.length) :
      Refuses s i minimum except (.insufficientFunds i.source
        ⟨i.shareUnits * i.destinations.length⟩ (s.view i.source except).available)

end Store

section Checks
variable {s : Store} {i : Transfer.Intent} {minimum : Amount} {except : Option Uuid}
  {P : Fault → Prop}

theorem moved_eq (i : Transfer.Intent) :
    i.split.moved = ⟨i.shareUnits * i.destinations.length⟩ := rfl

/-- The check of a transfer is the first two of four. -/
theorem refuses_of_check {why : Refusal} (h : i.check minimum = .error why) :
    s.Refuses i minimum except why := by
  unfold Transfer.Intent.check at h
  by_cases some : i.destinations = []
  · rw [if_pos some] at h
    obtain rfl := Except.error.inj h
    exact .nobody some
  rw [if_neg some] at h
  by_cases different : i.destinations.Nodup
  case neg =>
    rw [if_pos different] at h
    obtain rfl := Except.error.inj h
    exact .twice some different
  rw [if_neg (not_not.mpr different)] at h
  by_cases among : i.source ∈ i.destinations
  · rw [if_pos among] at h
    obtain rfl := Except.error.inj h
    exact .itself some different among
  rw [if_neg among] at h
  by_cases little : i.amount < minimum
  · rw [if_pos little] at h
    obtain rfl := Except.error.inj h
    exact .tooLittle ⟨some, different, among⟩ little
  · rw [if_neg little] at h
    cases h

theorem execute_improper {why : Refusal} (h : i.check minimum = .error why)
    (refuses : P (.refused why)) :
    (execute i minimum except).FailsOnly s P := by
  have hcheck : (Work.check ((i.check minimum).mapError Fault.refused)).FailsOnly s P := by
    rw [h]
    exact Work.failsOnly_throw refuses
  refine hcheck.bind fun desk u mid hs hgives => ?_
  obtain ⟨hok, -⟩ := Work.gives_check.mp hgives
  cases h.symm.trans (checked_refused.mp hok)

/-- If its debit is bound to fail, a transfer fails with what the debit fails with. -/
theorem execute_denied (denied : (debitAndCredit i.source i.credits except).FailsOnly s P)
    (never : ∀ desk total after, desk.Holds s →
      ¬(debitAndCredit i.source i.credits except).Gives desk total after)
    (proper : i.check minimum = .ok ()) : (execute i minimum except).FailsOnly s P := by
  have hcheck : (Work.check ((i.check minimum).mapError Fault.refused)).FailsOnly s P := by
    rw [proper]
    exact Work.failsOnly_pure
  refine hcheck.ask Work.reads_check fun _ => ?_
  refine Work.failsOnly_freshId.bind fun desk event mid hs h => ?_
  obtain ⟨-, rfl⟩ := Work.gives_freshId.mp h
  refine ⟨s, hs.skip 1, Work.failsOnly_now.ask Work.reads_now fun time => ?_⟩
  exact Work.FailsOnly.within
    (denied.bind fun desk total mid hs h => absurd h (never desk total mid hs))

/-- A debit of an account that cannot be named, or to one, fails for the first name that is none. -/
theorem debitAndCredit_unnamed {source : String} {credits : List (String × Amount)}
    (nonempty : credits ≠ [])
    (h : ∀ name ∈ source :: credits.map (·.1), ∀ why,
      checkName (.text name) = .error (.malformed why) → P (.refused (.malformed why)))
    (unnamed : ¬∀ name ∈ source :: credits.map (·.1), IsName name) :
    (debitAndCredit source credits except).FailsOnly s P := by
  unfold debitAndCredit
  rw [if_neg (by rwa [List.isEmpty_iff])]
  refine (checkEach_failsOnly fun name hname => h name (List.mem_cons_of_mem _ hname)).bind
    fun desk u mid hs hgives => ?_
  obtain ⟨-, rfl⟩ := Work.gives_forIn_check.mp hgives
  refine ⟨s, hs, (lock_failsOnly fun name hname => h name (mem_parties_gather.mp hname)).bind
    fun desk accounts mid hs hgives => ?_⟩
  obtain ⟨t, ht, hnamed, -, rfl⟩ := lock_gives.mp hgives
  exact absurd (fun name hname => hnamed name (mem_parties_gather.mpr hname)) unnamed

/-- A transfer that fails a check fails for it and for nothing else. -/
theorem execute_refused (fits : i.amount.units ≤ columnMax) (counts : s.Counts i.source except)
    (denied : ¬s.Allows i minimum except) :
    (execute i minimum except).FailsOnly s fun why =>
      ∃ refusal, why = .refused refusal ∧ s.Refuses i minimum except refusal := by
  cases hcheck : i.check minimum with
  | error why => exact execute_improper hcheck ⟨why, rfl, refuses_of_check hcheck⟩
  | ok u =>
    obtain ⟨some, different, apart, least⟩ := Transfer.Intent.check_ok.mp hcheck
    have proper : i.IsProper := ⟨some, different, apart⟩
    have nonempty : i.credits ≠ [] := by
      unfold Transfer.Intent.credits
      exact fun hnil => some (List.map_eq_nil_iff.mp hnil)
    have hparties : i.source :: i.credits.map (·.1) = i.source :: i.destinations := by
      rw [Transfer.Intent.map_fst_credits]
    have hsum : Amount.sum (i.credits.map (·.2)) = i.split.moved := Transfer.Intent.sum_credits
    by_cases named : ∀ name ∈ i.source :: i.destinations, IsName name
    case neg =>
      rw [← hparties] at named
      refine execute_denied
        (debitAndCredit_unnamed nonempty (fun name hname why herror => ?_) named)
        (fun desk total after hs h => ?_) hcheck
      · exact ⟨_, rfl, .unnamed why proper least (hparties ▸ hname) herror⟩
      · obtain ⟨t, ht, -, hnamed, -⟩ := debitAndCredit_gives.mp h
        exact named hnamed
    have short : (s.balance i.source).units < (s.held i.source except).units +
        (Amount.sum (i.credits.map (·.2))).units := by
      rw [hsum]
      exact Nat.lt_of_not_le fun covered => denied ⟨proper, least, named, covered⟩
    have hfits : ((Amount.sum (i.credits.map (·.2))).units : Int) ≤ columnMax := by
      have hmoved : i.split.moved.units ≤ i.amount.units := Transfer.Intent.moved_le
      rw [hsum]
      omega
    have hfails {desk : Desk} (hs : desk.Holds s) :
        ∃ t, s.Opens t (i.source :: i.credits.map (·.1)) ∧
          (debitAndCredit i.source i.credits except).FailsWith desk
            (.refused (.insufficientFunds i.source (.sum (i.credits.map (·.2)))
              (s.view i.source except).available)) t :=
      debitAndCredit_uncovered hs nonempty (hparties.symm ▸ named) hfits counts short
    refine execute_denied (fun desk hs why after herror => ?_) (fun desk total after hs h => ?_)
      hcheck
    · obtain ⟨t, -, fails⟩ := hfails hs
      obtain ⟨rfl, -⟩ := fails.unique herror
      rw [hsum] at short ⊢
      exact ⟨_, rfl, .uncovered proper least named short⟩
    · obtain ⟨t, -, fails⟩ := hfails hs
      exact fails.not_gives h

theorem not_gives_denied {desk after : Desk} {receipt : Transfer.Receipt} (hs : desk.Holds s)
    (balance : (s.balance i.source).units ≤ columnMax) (denied : ¬s.Allows i minimum except) :
    ¬(execute i minimum except).Gives desk receipt after := by
  intro h
  obtain ⟨t, utc, ht, pays, -⟩ := execute_gives.mp h
  obtain rfl := hs.unique ht
  obtain ⟨-, -, -, least⟩ := Transfer.Intent.check_ok.mp pays.proper
  exact denied ⟨pays.isProper, least, pays.names,
    (Store.covers_iff_of_fits except balance).mp pays.covered⟩

/-- A transfer that passes every check can be paid, if the desk can stamp its entries. -/
theorem Store.Allows.canPay {desk : Desk} {utc : Moment} (h : s.Allows i minimum except)
    (fits : i.amount.units ≤ columnMax) (counts : s.Counts i.source except)
    (timed : desk.now.IsStoredAs utc) (fresh : desk.IsFresh s (i.destinations.length + 1)) :
    desk.CanPay s i minimum except utc where
  proper := Transfer.Intent.check_ok.mpr
    ⟨h.proper.some, h.proper.different, h.proper.apart, h.least⟩
  names := h.named
  fits := by
    have hmoved : i.split.moved.units ≤ i.amount.units := Transfer.Intent.moved_le
    omega
  summed := counts.held
  covered := (Store.covers_iff_of_fits except counts.balance).mpr h.covered
  timed := timed
  admitted := Store.admits_of_fresh fresh utc

/-! ### What is moved and written -/

/-- What a transfer makes of the tables: the source loses a share for every destination, each of
them with room for one gains one, and each has an entry with its number under the event, which is
new. -/
structure Store.Transfers (s t : Store) (i : Transfer.Intent) (event : Uuid) : Prop where
  lost : (t.balance i.source).units + i.shareUnits * i.destinations.length =
    (s.balance i.source).units
  gained : ∀ name ∈ i.destinations, ((s.balance name).units + i.shareUnits : Nat) ≤ columnMax →
    (t.balance name).units = (s.balance name).units + i.shareUnits
  others : ∀ name, name ∉ i.source :: i.destinations → t.account? name = s.account? name
  drops : t.drops = s.drops
  unheard : ∀ e ∈ s.entries, e.event ≠ event
  entries : ∃ rows, t.entries = s.entries ++ rows ∧
    rows.map (·.destination) = i.destinations ∧
    rows.map (·.line) = (List.range i.destinations.length).map Int.ofNat ∧
    ∀ e ∈ rows, e.event = event ∧ e.source = i.source ∧ e.amount.units = i.shareUnits ∧
      e.kind = .known i.kind

theorem transfers_transferred {desk : Desk} {utc : Moment} (proper : i.IsProper)
    (balance : (s.balance i.source).units ≤ columnMax)
    (covered : i.shareUnits * i.destinations.length ≤ (s.balance i.source).units)
    (fresh : desk.IsFresh s (i.destinations.length + 1)) :
    s.Transfers (s.transferred i (desk.rowsFor i utc)) i (desk.ids desk.nextId) where
  lost := by
    have hlost := Store.balance_transferred_of_fits (desk.rowsFor i utc) proper.different
      proper.apart balance covered fun h => absurd h proper.apart
    rw [if_pos rfl, if_neg proper.apart] at hlost
    exact hlost
  gained name hname room := by
    have hsource : i.source ≠ name := fun h => proper.apart (h ▸ hname)
    have hgained := Store.balance_transferred_of_fits (desk.rowsFor i utc) proper.different
      proper.apart balance covered fun _ => room
    rw [if_neg hsource, if_pos hname] at hgained
    exact hgained
  others name hname := s.account?_transferred_of_not_mem _ name hname
  drops := s.drops_transferred _
  unheard e he := (fresh.unused 0 (Nat.succ_pos _) e he).2
  entries := by
    refine ⟨desk.rowsFor i utc, s.entries_transferred _, ?_, ?_, fun e he => ?_⟩
    · unfold Desk.rowsFor
      rw [map_destination_entriesFor, map_fst_stamp]
    · unfold Desk.rowsFor
      have hlength : (stamp desk.ids (desk.nextId + 1) i.destinations).length =
          i.destinations.length := by
        rw [← List.length_map, map_fst_stamp]
      rw [Store.map_line_entriesFor, hlength]
      simp only [Nat.zero_add]
    · obtain ⟨hevent, hkind, hsource, hamount, -⟩ := shared_of_mem_entriesFor he
      exact ⟨hevent, hsource, congrArg Amount.units hamount, hkind⟩

end Checks
end Ledger

/-! ### The unit of work -/

/-- What the receipt of a transfer says: shares and remainder make up what was asked for, and the
remainder would not do for another share each. -/
structure Transfer.Receipt.Balances (r : Receipt) (i : Intent) : Prop where
  share : r.share.units = i.shareUnits
  moved : r.moved.units = r.share.units * i.destinations.length
  whole : r.moved + r.remainder = i.amount
  rest : r.remainder.units < i.destinations.length

/-- As long as the balance and the holds of its source fit their columns, a transfer is kept exactly
if it passes its checks, is refused for the first that it fails with everything undone, and moves
and writes its shares otherwise. -/
theorem State.execute_decided {σ : State} {desk : Desk} {i : Transfer.Intent} {minimum : Amount}
    {except : Option Uuid} {utc : Moment} (operation : String) (fits : i.amount.units ≤ columnMax)
    (counts : σ.store.Counts i.source except) (timed : desk.now.IsStoredAs utc)
    (fresh : desk.IsFresh σ.store (i.destinations.length + 1)) :
    ((∃ receipt after, (σ.begun desk).transact operation (execute i minimum except) =
        (.ok receipt, after)) ↔ σ.store.Allows i minimum except) ∧
    (∀ why after, (σ.begun desk).transact operation (execute i minimum except) =
        (.error why, after) →
      after.tables = some σ.store ∧
        ∃ refusal, why = .refused refusal ∧ σ.store.Refuses i minimum except refusal) ∧
    ∀ receipt after, (σ.begun desk).transact operation (execute i minimum except) =
        (.ok receipt, after) →
      receipt.Balances i ∧ ∃ t, after.Holds t ∧ σ.store.Transfers t i receipt.event := by
  have hbegun := σ.holds_begun desk
  have hfresh : (σ.begun desk).IsFresh σ.store (i.destinations.length + 1) :=
    ⟨fresh.different, fresh.unused⟩
  have hkept (allows : σ.store.Allows i minimum except) :
      ∃ receipt after, (σ.begun desk).transact operation (execute i minimum except) =
        (.ok receipt, after) := by
    refine ⟨_, _, transact_begun_ok.mpr ⟨execute_gives.mpr
      ⟨_, utc, hbegun, allows.canPay fits counts timed hfresh, rfl, rfl⟩, ?_⟩⟩
    exact (hbegun.afterTransfer i _).sound
  have hdenied (denied : ¬σ.store.Allows i minimum except) {receipt : Transfer.Receipt}
      {after : Desk} : ¬(execute i minimum except).Gives (σ.begun desk) receipt after :=
    not_gives_denied hbegun counts.balance denied
  refine ⟨⟨fun h => ?_, hkept⟩, fun why after h => ⟨Desk.tables_transact_error h, ?_⟩,
    fun receipt after h => ?_⟩
  · obtain ⟨receipt, after, h⟩ := h
    by_contra denied
    exact hdenied denied (transact_begun_ok.mp h).1
  · have denied : ¬σ.store.Allows i minimum except := by
      intro allows
      obtain ⟨receipt, left, hdone⟩ := hkept allows
      cases h.symm.trans hdone
    obtain ⟨cause, left, hundone, refused⟩ := transact_begun_fails
      (execute_refused fits counts denied) (fun _ _ => hdenied denied)
      (fun cause => nofun) operation
    have hsame := h.symm.trans hundone
    injection hsame with hwhy
    rw [Except.error.inj hwhy]
    exact refused
  · obtain ⟨t, time, ht, pays, rfl, rfl⟩ := execute_gives.mp (transact_begun_ok.mp h).1
    obtain rfl := hbegun.unique ht
    have covered : i.shareUnits * i.destinations.length ≤ (σ.store.balance i.source).units := by
      have hcovered := (Store.covers_iff_of_fits except counts.balance).mp pays.covered
      rw [moved_eq] at hcovered
      dsimp only at hcovered
      omega
    refine ⟨⟨rfl, rfl, Transfer.Split.moved_add_remainder _ _, Nat.mod_lt _ ?_⟩, _,
      hbegun.afterTransfer _ _, transfers_transferred pays.isProper counts.balance covered hfresh⟩
    exact List.length_pos_of_ne_nil pays.isProper.some

/-- A tip that passes its checks is kept, at a desk that can stamp its entries. -/
theorem State.perform_tip {σ : State} {desk : Desk} {i : Transfer.Intent} {minimum : Amount}
    {utc : Moment} (allows : σ.store.Allows i minimum none) (fits : i.amount.units ≤ columnMax)
    (counts : σ.store.Counts i.source none) (timed : desk.now.IsStoredAs utc)
    (fresh : desk.IsFresh σ.store (i.destinations.length + 1)) (operation : String) :
    σ.perform (.tip i minimum) operation desk =
      ⟨σ.store.transferred i (desk.rowsFor i utc), σ.history⟩ := by
  have hbegun := σ.holds_begun desk
  have pays : (σ.begun desk).CanPay σ.store i minimum none utc :=
    allows.canPay fits counts timed ⟨fresh.different, fresh.unused⟩
  have hgives := execute_gives.mpr ⟨_, utc, hbegun, pays, rfl, rfl⟩
  have hwork : (Deed.work (.tip i minimum)).Gives (σ.begun desk) [] _ :=
    Work.gives_bind.mpr ⟨_, _, hgives, Work.gives_pure.mpr ⟨rfl, rfl⟩⟩
  rw [perform_of_gives hwork (hbegun.afterTransfer i _) operation, List.append_nil]
  rfl

/-! ### Numbered identifiers

The desks of samples hand out numbers, so an identifier is new if no entry has come as far. -/

namespace Sample

/-- Whether the entries have only identifiers below a number. -/
def Numbered (s : Store) (next : Nat) : Prop :=
  ∀ e ∈ s.entries, e.id.value < next ∧ e.event.value < next

theorem numbered_of_nil {s : Store} (h : s.entries = []) (next : Nat) : Numbered s next := by
  unfold Numbered
  simp [h]

theorem Numbered.isFresh {s : Store} {next later count : Nat} (h : Numbered s next)
    (enough : next ≤ later) (room : later + count ≤ Uuid.count) :
    (desk later).IsFresh s count := by
  have hvalue (k : Nat) (hk : k < count) : (Uuid.ofNat (later + k)).value = later + k :=
    Uuid.value_ofNat _ (by omega)
  refine ⟨List.Nodup.map_on (fun k hk l hl heq => ?_) List.nodup_range, fun k hk e he => ?_⟩
  · have hsame : (Uuid.ofNat (later + k)).value = (Uuid.ofNat (later + l)).value :=
      congrArg Uuid.value heq
    rw [hvalue k (List.mem_range.mp hk), hvalue l (List.mem_range.mp hl)] at hsame
    omega
  · obtain ⟨hid, hevent⟩ := h e he
    have hnew {u : Uuid} (below : u.value < next) : u ≠ Uuid.ofNat (later + k) := by
      rintro rfl
      rw [hvalue k hk] at below
      omega
    exact ⟨hnew hid, hnew hevent⟩

/-- A transfer takes as many numbers as it has destinations, and one for its event. -/
theorem Numbered.transferred {s : Store} {i : Transfer.Intent} {utc : Moment} {next : Nat}
    (h : Numbered s next) (room : next + i.destinations.length < Uuid.count) :
    Numbered (s.transferred i ((desk next).rowsFor i utc)) (next + i.destinations.length + 1) := by
  intro e he
  rw [Store.entries_transferred] at he
  rcases List.mem_append.mp he with he | he
  · obtain ⟨hid, hevent⟩ := h e he
    omega
  · have hid : e.id ∈ (stamp .ofNat (next + 1) i.destinations).map (·.2) := by
      rw [← map_id_entriesFor]
      exact List.mem_map_of_mem he
    rw [map_snd_stamp] at hid
    obtain ⟨k, hk, hid⟩ := List.mem_map.mp hid
    have hk := List.mem_range.mp hk
    have hevent : e.event = Uuid.ofNat next := Store.event_of_mem_rowsFor he
    rw [← hid, hevent, Uuid.value_ofNat _ (by omega), Uuid.value_ofNat _ (by omega)]
    omega

end Sample

/-! ### Seven units for two guests

Alice has ten units. Each guest gets three, and the seventh stays with her. -/

def Sample.oddIntent : Transfer.Intent := ⟨"alice", guests, ⟨7⟩, .role⟩

theorem State.oddIntent_executed : ∃ receipt after t,
    (Sample.funded.begun (Sample.desk 1)).transact "role_tip" (execute Sample.oddIntent ⟨1⟩ none) =
        (.ok receipt, after) ∧
      after.Holds t ∧ receipt.remainder.units = 1 ∧ (t.balance "alice").units = 4 ∧
      (t.balance "bob").units = 3 ∧ (t.balance "carol").units = 3 := by
  have hnone : Sample.funded.store.entries = [] := by decide +kernel
  have fits : (Sample.oddIntent.amount.units : Int) ≤ columnMax := by decide
  have timed : (Sample.desk 1).now.IsStoredAs Sample.deadline := Moment.isStoredAs_self rfl
  have fresh : (Sample.desk 1).IsFresh Sample.funded.store
      (Sample.oddIntent.destinations.length + 1) := by
    refine ⟨by decide +kernel, fun k _ e he => ?_⟩
    rw [hnone] at he
    cases he
  have allows : Sample.funded.store.Allows Sample.oddIntent ⟨1⟩ none := by
    refine ⟨⟨by decide, by decide, by decide⟩, by decide, ?_, by decide +kernel⟩
    exact List.forall_mem_cons.mpr ⟨rfl, Sample.named_guests⟩
  have counts : Sample.funded.store.Counts "alice" none := Sample.contained_funded.counts _ _
  obtain ⟨receipt, after, hdone⟩ :=
    (execute_decided "role_tip" fits counts timed fresh).1.mpr allows
  obtain ⟨balances, t, ht, transfers⟩ :=
    (execute_decided "role_tip" fits counts timed fresh).2.2 receipt after hdone
  have halice : (Sample.funded.store.balance "alice").units = 10 := by decide +kernel
  have hguest : ∀ name ∈ Sample.guests, (t.balance name).units = 3 := by
    intro name hname
    have hbefore : ∀ name ∈ Sample.guests, (Sample.funded.store.balance name).units = 0 := by
      decide +kernel
    have hgained := transfers.gained name hname
    rw [hbefore name hname] at hgained
    exact hgained (by decide)
  have hlost : (t.balance "alice").units + 6 = (Sample.funded.store.balance "alice").units :=
    transfers.lost
  have hwhole : 6 + receipt.remainder.units = 7 := by
    have hsum := congrArg Amount.units balances.whole
    rw [Amount.units_add, balances.moved, balances.share] at hsum
    exact hsum
  exact ⟨receipt, after, t, hdone, ht, by omega, by omega, hguest "bob" (by decide),
    hguest "carol" (by decide)⟩

end TipJar
