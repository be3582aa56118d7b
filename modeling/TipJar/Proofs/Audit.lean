import TipJar.Ledger.Queries
import TipJar.Proofs.Payability

/-! The audit identity.

Balances are changed by one part of the ledger and entries are written by another,
and nothing ever compares them. They agree all the same, as long as balances stay
within their columns: what an account holds is what was deposited to it, and what
its entries say it received, without what they say it sent. Summed over all
accounts the entries cancel, and what the wallet must cover is exactly what was
deposited. Since nothing else brings units in, no balance outgrows its column
before all deposits together would. -/
namespace TipJar
open Ledger

/-! ### What entries say -/

namespace Ledger

/-- What an account sent, according to some entries. -/
def sentIn (rows : List Entry) (name : String) : Nat :=
  ((rows.filter (·.source == name)).map (·.amount.units)).sum

/-- What an account received, according to some entries. -/
def receivedIn (rows : List Entry) (name : String) : Nat :=
  ((rows.filter (·.destination == name)).map (·.amount.units)).sum

theorem sentIn_append (rows more : List Entry) (name : String) :
    sentIn (rows ++ more) name = sentIn rows name + sentIn more name := by
  unfold sentIn
  rw [List.filter_append, List.map_append, List.sum_append]

theorem receivedIn_append (rows more : List Entry) (name : String) :
    receivedIn (rows ++ more) name = receivedIn rows name + receivedIn more name := by
  unfold receivedIn
  rw [List.filter_append, List.map_append, List.sum_append]

theorem Store.units_sent (s : Store) (name : String) :
    (s.flow name).sent.units = sentIn s.entries name := by
  unfold flow sentIn
  rw [Amount.units_sum, List.map_map]
  rfl

theorem Store.units_received (s : Store) (name : String) :
    (s.flow name).received.units = receivedIn s.entries name := by
  unfold flow receivedIn
  rw [Amount.units_sum, List.map_map]
  rfl

section Entries
variable {event : Uuid} {i : Transfer.Intent} {share : Amount} {utc : Moment} {line : Nat}
  {stamped : List (String × Uuid)}

/-- The source of a transfer sent one share with each entry. -/
theorem sentIn_entriesFor (name : String) :
    sentIn (entriesFor event i share utc line stamped) name =
      if i.source = name then share.units * stamped.length else 0 := by
  induction stamped generalizing line with
  | nil => simp [sentIn, entriesFor]
  | cons first rest ih =>
    have hrest := @ih (line + 1)
    unfold sentIn at hrest ⊢
    unfold entriesFor
    by_cases h : i.source = name
    · rw [if_pos h] at hrest ⊢
      rw [List.filter_cons_of_pos (by simp [h]), List.map_cons, List.sum_cons, hrest,
        List.length_cons, Nat.mul_succ, Nat.add_comm]
    · rw [if_neg h] at hrest ⊢
      rw [List.filter_cons_of_neg (by simp [h]), hrest]

/-- Every destination of a transfer received one share. -/
theorem receivedIn_entriesFor (name : String) (different : (stamped.map (·.1)).Nodup) :
    receivedIn (entriesFor event i share utc line stamped) name =
      if name ∈ stamped.map (·.1) then share.units else 0 := by
  induction stamped generalizing line with
  | nil => simp [receivedIn, entriesFor]
  | cons first rest ih =>
    rw [List.map_cons, List.nodup_cons] at different
    have hrest := @ih (line + 1) different.2
    unfold receivedIn at hrest ⊢
    unfold entriesFor
    by_cases h : first.1 = name
    · subst h
      rw [if_neg different.1] at hrest
      rw [List.filter_cons_of_pos (by simp), List.map_cons, List.sum_cons, hrest, List.map_cons,
        if_pos List.mem_cons_self]
      rfl
    · have hmem : name ∈ (first :: rest).map (·.1) ↔ name ∈ rest.map (·.1) := by
        rw [List.map_cons, List.mem_cons]
        exact or_iff_right (Ne.symm h)
      rw [List.filter_cons_of_neg (by simp [h]), hrest]
      simp only [hmem]

end Entries

/-- A transfer moves what its entries say. -/
theorem Store.balance_transferred_eq {s : Store} {desk : Desk} {i : Transfer.Intent}
    {minimum : Amount} {except : Option Uuid} {utc : Moment}
    (pays : desk.CanPay s i minimum except utc) (before : s.Bounded)
    (after : (s.transferred i (desk.rowsFor i utc)).Bounded) (name : String) :
    ((s.transferred i (desk.rowsFor i utc)).balance name).units +
        sentIn (desk.rowsFor i utc) name =
      (s.balance name).units + receivedIn (desk.rowsFor i utc) name := by
  obtain ⟨-, different, -⟩ := Transfer.Intent.check_ok.mp pays.proper
  have hlength :
      (stamp desk.ids (desk.nextId + 1) i.destinations).length = i.destinations.length := by
    rw [← List.length_map, map_fst_stamp]
  have hmoved : i.split.share.units * i.destinations.length = i.split.moved.units := rfl
  have hsent : sentIn (desk.rowsFor i utc) name =
      if i.source = name then i.split.moved.units else 0 := by
    unfold Desk.rowsFor
    rw [sentIn_entriesFor, hlength, hmoved]
  have hreceived : receivedIn (desk.rowsFor i utc) name =
      if name ∈ i.destinations then i.split.share.units else 0 := by
    unfold Desk.rowsFor
    rw [receivedIn_entriesFor name (by rw [map_fst_stamp]; exact different), map_fst_stamp]
  rw [hsent, hreceived]
  exact balance_transferred_exactly pays before after name

end Ledger

/-! ### What was deposited -/

/-- The deposits of a history, with their accounts. -/
def depositsIn (history : List Mark) : List (String × Amount) :=
  history.filterMap fun
    | .deposited name amount => some (name, amount)
    | _ => none

theorem depositsIn_append (history more : List Mark) :
    depositsIn (history ++ more) = depositsIn history ++ depositsIn more := List.filterMap_append

@[simp] theorem depositsIn_claimed (history : List Mark) (d : Drop) :
    depositsIn (history ++ [.claimed d]) = depositsIn history :=
  (depositsIn_append _ _).trans (List.append_nil _)

@[simp] theorem depositsIn_paidOut (history : List Mark) (drop : Uuid)
    (receipt : Transfer.Receipt) :
    depositsIn (history ++ [.paidOut drop receipt]) = depositsIn history :=
  (depositsIn_append _ _).trans (List.append_nil _)

@[simp] theorem depositsIn_deposited (history : List Mark) (name : String) (amount : Amount) :
    depositsIn (history ++ [.deposited name amount]) = depositsIn history ++ [(name, amount)] :=
  depositsIn_append _ _

namespace State
variable {σ τ : State}

/-- What was deposited to an account. -/
def deposited (σ : State) (name : String) : Nat := Store.credited (depositsIn σ.history) name

/-- What was deposited to all accounts. -/
def allDeposited (σ : State) : Nat := ((depositsIn σ.history).map (·.2.units)).sum

/-- What a change adds to the deposits of an account and to its entries is what it adds to the
balance. -/
theorem audited_change (bounded : BoundedChange σ τ) (name : String)
    (h : (σ.store.balance name).units + sentIn σ.store.entries name =
      σ.deposited name + receivedIn σ.store.entries name) :
    (τ.store.balance name).units + sentIn τ.store.entries name =
      τ.deposited name + receivedIn τ.store.entries name := by
  obtain ⟨change, before, after⟩ := bounded
  unfold deposited at h ⊢
  cases change with
  | opened =>
    rw [Store.balance_withAccount, Store.entries_withAccount]
    exact h
  | set same =>
    rw [Store.balance_updateAccount _ _ _ (fun a => (same a).1) (fun a => (same a).2)]
    exact h
  | @deposited s history depositor amount there =>
    have hafter := after name
    have hcredited : Store.credited [(depositor, amount)] name =
        if depositor = name then amount.units else 0 := Store.credited_cons _ _ _
    rw [Store.balance_credit s depositor name amount there] at hafter ⊢
    simp only [depositsIn_deposited, Store.credited_append, hcredited] at h ⊢
    change _ + sentIn s.entries name = _ + receivedIn s.entries name
    split at hafter
    · next same =>
      rw [if_pos same, if_pos same, columnSum_of_fits (columnSum_fits.mp hafter)]
      omega
    · next other =>
      rw [if_neg other, if_neg other]
      exact h
  | @tipped s _ desk i _ utc tip pays =>
    have hmoves := Store.balance_transferred_eq pays before after name
    simp only [Store.entries_transferred, sentIn_append, receivedIn_append] at h ⊢
    omega
  | created => exact h
  | claimed =>
    rw [depositsIn_claimed]
    exact h
  | @paidOut s _ desk d _ participants _ utc given pays =>
    have hmoves := Store.balance_transferred_eq pays before after name
    simp only [depositsIn_paidOut, Store.balance_paidOut, Store.entries_paidOut, sentIn_append,
      receivedIn_append] at h ⊢
    omega
  | closed => exact h

/-- The audit identity of one account, with nothing subtracted. -/
theorem Contained.audited (h : σ.Contained) (name : String) :
    (σ.store.balance name).units + sentIn σ.store.entries name =
      σ.deposited name + receivedIn σ.store.entries name :=
  h.induct (P := fun σ => (σ.store.balance name).units + sentIn σ.store.entries name =
    σ.deposited name + receivedIn σ.store.entries name) rfl
    fun _ change => audited_change change name

/-- What is deposited is added to all balances together, and nothing else is. -/
theorem custodial_change (hn : σ.store.NamesDiffer) (bounded : BoundedChange σ τ)
    (h : σ.store.custodial.units = σ.allDeposited) :
    τ.store.custodial.units = τ.allDeposited := by
  obtain ⟨change, before, after⟩ := bounded
  have hmoves {s : Store} {desk : Desk} {i : Transfer.Intent} {minimum : Amount}
      {except : Option Uuid} {utc : Moment} (hn : s.NamesDiffer) (before : s.Bounded)
      (after : (s.transferred i (desk.rowsFor i utc)).Bounded)
      (pays : desk.CanPay s i minimum except utc) :
      (s.transferred i (desk.rowsFor i utc)).custodial.units = s.custodial.units := by
    obtain ⟨-, different, apart, -⟩ := Transfer.Intent.check_ok.mp pays.proper
    have hcovered := (Store.covers_iff_of_fits except (before i.source)).mp pays.covered
    exact Store.custodial_transferred _ hn different apart (Nat.le_of_add_left_le hcovered)
      (before i.source) after
  unfold allDeposited at h ⊢
  cases change with
  | opened =>
    rw [Store.custodial_withAccount]
    exact h
  | set same =>
    rw [Store.custodial_updateAccount _ _ fun a => (same a).2]
    exact h
  | @deposited s history depositor amount there =>
    have hafter := after depositor
    rw [Store.balance_credit s depositor depositor amount there, if_pos rfl] at hafter
    rw [depositsIn_deposited, Store.custodial_credit _ _ hn there (columnSum_fits.mp hafter),
      List.map_append, List.sum_append, ← h]
    rfl
  | tipped tip pays =>
    rw [hmoves hn before after pays]
    exact h
  | created => exact h
  | claimed =>
    rw [depositsIn_claimed]
    exact h
  | @paidOut s _ desk d _ participants _ utc given pays =>
    rw [depositsIn_paidOut, ← h]
    show (s.paidOut d participants _ _ utc).custodial.units = _
    rw [Store.custodial_paidOut]
    exact hmoves hn before after pays
  | closed => exact h

/-- What the wallet must cover is what was deposited. -/
theorem Contained.custodial (h : σ.Contained) : σ.store.custodial.units = σ.allDeposited :=
  h.induct (P := fun σ => σ.store.custodial.units = σ.allDeposited) rfl
    fun before => custodial_change before.namesDiffer

/-! ### Enough room

Units come in by deposits alone. So as long as all deposits together fit a column, there
is room for whatever transfers do with them. -/

theorem Change.allDeposited_le (change : Change σ τ) : σ.allDeposited ≤ τ.allDeposited := by
  unfold allDeposited
  cases change with
  | deposited =>
    rw [depositsIn_deposited, List.map_append, List.sum_append]
    exact Nat.le_add_right _ _
  | claimed => rw [depositsIn_claimed]
  | paidOut => rw [depositsIn_paidOut]
  | opened | set | tipped | created | closed => exact Nat.le_refl _

/-- Where all balances together fit a column, a share has room wherever it goes. -/
theorem bounded_transferred {s : Store} {desk : Desk} {i : Transfer.Intent} {minimum : Amount}
    {except : Option Uuid} {utc : Moment} (hn : s.NamesDiffer) (before : s.Bounded)
    (fits : s.custodial.units ≤ columnMax) (pays : desk.CanPay s i minimum except utc) :
    (s.transferred i (desk.rowsFor i utc)).Bounded := by
  obtain ⟨-, different, apart, -⟩ := Transfer.Intent.check_ok.mp pays.proper
  have hcovered := (Store.covers_iff_of_fits except (before i.source)).mp pays.covered
  have hroom (name : String) (hname : name ∈ i.destinations) :
      ((s.balance name).units + i.split.share.units : Nat) ≤ columnMax := by
    have hsource : name ≠ i.source := fun h => apart (h ▸ hname)
    have htogether := Store.balance_add_le_custodial hn hsource (before i.source)
    have hshare : i.split.share.units ≤ i.split.moved.units :=
      Nat.le_mul_of_pos_right _ (List.length_pos_of_mem hname)
    omega
  intro name
  have hbefore := before name
  have hmoved := Store.balance_transferred_of_fits (desk.rowsFor i utc) different apart
    (before i.source) (Nat.le_of_add_left_le hcovered) (hroom name)
  by_cases hname : name ∈ i.destinations
  · have hshare := hroom name hname
    rw [if_pos hname] at hmoved
    omega
  · rw [if_neg hname] at hmoved
    omega

/-- A change after which all deposits fit a column leaves every balance in its own. -/
theorem bounded_change (hn : σ.store.NamesDiffer) (before : σ.store.Bounded)
    (audited : σ.store.custodial.units = σ.allDeposited) (change : Change σ τ)
    (fits : τ.allDeposited ≤ columnMax) : τ.store.Bounded := by
  have hfits : σ.store.custodial.units ≤ columnMax := by
    rw [audited]
    exact Int.le_trans (Int.ofNat_le.mpr change.allDeposited_le) fits
  cases change with
  | opened =>
    intro name
    rw [Store.balance_withAccount]
    exact before name
  | set same =>
    intro name
    rw [Store.balance_updateAccount _ _ _ (fun a => (same a).1) (fun a => (same a).2)]
    exact before name
  | @deposited s history depositor amount there =>
    intro name
    rw [Store.balance_credit s depositor name amount there]
    split
    · have hbalance : (s.balance name).units ≤ allDeposited ⟨s, history⟩ :=
        audited ▸ s.balance_le_custodial name
      unfold allDeposited at hbalance fits
      rw [depositsIn_deposited, List.map_append, List.sum_append] at fits
      have hsum := Nat.add_le_add_right hbalance amount.units
      exact columnSum_fits.mpr (Int.le_trans (Int.ofNat_le.mpr hsum) fits)
    · exact before name
  | tipped tip pays => exact bounded_transferred hn before hfits pays
  | paidOut given pays =>
    intro name
    rw [Store.balance_paidOut]
    exact bounded_transferred hn before hfits pays name
  | created | claimed | closed => exact before

theorem Reached.bounded (h : σ.Reached) (fits : σ.allDeposited ≤ columnMax) :
    σ.store.Bounded ∧ σ.store.custodial.units = σ.allDeposited := by
  induction h with
  | refl => exact ⟨bounded_start, rfl⟩
  | tail run change ih =>
    have hn := Reached.namesDiffer run
    obtain ⟨before, audited⟩ :=
      ih (Int.le_trans (Int.ofNat_le.mpr change.allDeposited_le) fits)
    have after := bounded_change hn before audited change fits
    exact ⟨after, custodial_change hn ⟨change, before, after⟩ audited⟩

theorem Step.allDeposited_le (step : Step σ τ) : σ.allDeposited ≤ τ.allDeposited := by
  obtain ⟨deed, operation, desk, -⟩ := step
  rcases σ.perform_cases deed operation desk with hsame | ⟨marks, after, -, hleft⟩
  · rw [hsame]
  · rw [hleft]
    unfold allDeposited
    rw [depositsIn_append, List.map_append, List.sum_append]
    exact Nat.le_add_right _ _

/-- As long as all deposits together fit a column, no balance ever outgrows its own. -/
theorem Reachable.contained (h : σ.Reachable) (fits : σ.allDeposited ≤ columnMax) :
    σ.Contained := by
  induction h with
  | refl => exact .refl
  | tail run step ih =>
    have hreachable := Relation.ReflTransGen.tail run step
    exact (ih (Int.le_trans (Int.ofNat_le.mpr step.allDeposited_le) fits)).tail
      ⟨step, ((Reachable.reached hreachable).bounded fits).1⟩

/-! ### The identity -/

/-- What is reported as the sum of all balances is what was deposited, if that fits a column. -/
theorem Contained.transact_custodialTotal (h : σ.Contained) (desk : Desk) (operation : String) :
    ∃ after, (σ.begun desk).transact operation custodialTotal =
      (if σ.allDeposited ≤ columnMax then .ok ⟨σ.allDeposited⟩
        else .error (.refused (.unsaved operation .overflowed)), after) := by
  have hs := σ.holds_begun desk
  have haccounts : ∀ a ∈ σ.store.accounts, (a.balance.units : Int) ≤ columnMax := by
    intro a ha
    rw [← Store.balance_of_account? σ.store a.name
      (Rows.find?_of_mem Account.name h.reached.namesDiffer ha)]
    exact h.bounded a.name
  have hsum : σ.store.custodial = ⟨σ.allDeposited⟩ := Amount.ext h.custodial
  by_cases fits : (σ.allDeposited : Int) ≤ columnMax
  · rw [if_pos fits]
    refine ⟨_, transact_begun_ok.mpr ⟨Work.gives_bind.mpr ⟨σ.store, _,
      Work.gives_tables.mpr ⟨hs, rfl⟩, ?_⟩, hs.sound⟩⟩
    rw [if_pos haccounts, hsum]
    exact Work.gives_bind.mpr ⟨⟨⟩, _,
      summed_gives.mpr ⟨List.forall_mem_singleton.mpr fits, rfl⟩, Work.gives_pure.mpr ⟨rfl, rfl⟩⟩
  · rw [if_neg fits]
    refine Desk.transact_failsWith (t := σ.store) ?_ operation
    refine (Work.gives_tables.mpr ⟨hs, rfl⟩).failsWith ?_
    rw [if_pos haccounts, hsum]
    exact (summed_failsWith hs fun hall => fits (hall _ (List.mem_singleton_self _))).bind

/-- Ending lives without a payout moves no value, on either side of the identity. -/
theorem perform_closing (σ : State) (deed : Deed) (closing : deed.IsClosing) (operation : String)
    (desk : Desk) :
    (σ.perform deed operation desk).store.accounts = σ.store.accounts ∧
      (σ.perform deed operation desk).store.entries = σ.store.entries ∧
      (σ.perform deed operation desk).history = σ.history := by
  rcases σ.perform_cases deed operation desk with hsame | ⟨marks, after, hgives, hleft⟩
  · rw [hsame]
    exact ⟨rfl, rfl, rfl⟩
  · obtain ⟨rfl, t, ht, hcloses⟩ := closes_of_gives deed closing (σ.holds_begun desk) hgives
    rw [ht.tables, Option.getD_some, List.append_nil] at hleft
    rw [hleft]
    have hkept : t.accounts = σ.store.accounts ∧ t.entries = σ.store.entries := by
      clear hleft ht
      induction hcloses with
      | refl => exact ⟨rfl, rfl⟩
      | tail _ closes ih =>
        cases closes
        exact ih
    exact ⟨hkept.1, hkept.2, rfl⟩

/-- In every state that units of work lead to, kept or undone, in which no balance has ever outgrown
its column, the balance of each account is what was deposited to it and what it received without
what it sent, so all balances together are all deposits, and that is what is reported as their sum
unless it is itself too large for a column. A unit that fails leaves no trace on either side, and
neither does a drop that ends without a payout. -/
theorem balances_always_audited (h : σ.Contained) :
    (∀ name, ((σ.store.balance name).units : Int) =
        σ.deposited name + (σ.store.flow name).received.units - (σ.store.flow name).sent.units) ∧
      σ.store.custodial.units = σ.allDeposited ∧
      (∀ operation desk, ∃ after, (σ.begun desk).transact operation custodialTotal =
        (if σ.allDeposited ≤ columnMax then .ok ⟨σ.allDeposited⟩
          else .error (.refused (.unsaved operation .overflowed)), after)) ∧
      (∀ deed operation desk why after,
        (σ.begun desk).transact operation (Deed.work deed) = (.error why, after) →
          after.tables = some σ.store ∧ σ.perform deed operation desk = σ) ∧
      ∀ (deed : Deed) operation desk, deed.IsClosing →
        (σ.perform deed operation desk).store.accounts = σ.store.accounts ∧
          (σ.perform deed operation desk).store.entries = σ.store.entries ∧
          (σ.perform deed operation desk).history = σ.history := by
  refine ⟨fun name => ?_, h.custodial,
    fun operation desk => h.transact_custodialTotal desk operation,
    ?_, ?_⟩
  · have haudited := h.audited name
    rw [Store.units_sent, Store.units_received]
    omega
  · intro deed operation desk why after hfailed
    exact ⟨Desk.tables_transact_error hfailed, perform_of_error hfailed⟩
  · exact fun deed operation desk closing => σ.perform_closing deed closing operation desk

/-- Alice had ten units deposited and has paid out six of them, and ten is what is reported. -/
theorem sample_audited :
    (4 : Int) = 10 + (Sample.paid.store.flow "alice").received.units -
        (Sample.paid.store.flow "alice").sent.units ∧
      ∃ after, (Sample.paid.begun (Sample.desk 9)).transact "supply_report" custodialTotal =
        (.ok ⟨10⟩, after) := by
  obtain ⟨receipt, t, hpaid, pays⟩ := sample_paid_eq
  obtain ⟨haudited, -, hreported, -⟩ := balances_always_audited contained_sample_paid
  have hdeposits : depositsIn Sample.paid.history = [("alice", ⟨10⟩)] := by
    rw [hpaid, depositsIn_paidOut]
    decide +kernel
  have hdeposited : Sample.paid.deposited "alice" = 10 := by
    unfold deposited
    rw [hdeposits]
    decide
  have htogether : Sample.paid.allDeposited = 10 := by
    unfold allDeposited
    rw [hdeposits]
    rfl
  have hbalance : (Sample.paid.store.balance "alice").units = 4 := by
    have hlost : (t.balance "alice").units + 6 = 10 := pays.lost.trans (by decide +kernel)
    rw [hpaid]
    show (t.balance "alice").units = 4
    omega
  have halice := haudited "alice"
  rw [hbalance, hdeposited] at halice
  obtain ⟨after, hreport⟩ := hreported "supply_report" (Sample.desk 9)
  rw [htogether, if_pos (by decide)] at hreport
  exact ⟨halice, after, hreport⟩

end State
end TipJar
