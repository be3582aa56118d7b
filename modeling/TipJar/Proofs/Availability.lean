import TipJar.Proofs.Overdrafts

/-! What can be spent, three times over.

A holder is shown what can be spent, a drop is checked against it before it is
started, and a debit is accepted or refused by it. The three are computed apart: the
first as a difference that stops at nothing, the second by a comparison with that
difference, the third by adding the holds to the sum that is asked for. They agree on
every amount that is something, also where the holds exceed the balance, and a
refusal names what is shown. An amount of nothing is the exception: it can be spent
from any view, but not debited where the holds exceed the balance. And a balance or
holds that have outgrown their columns are no longer compared exactly. -/
namespace TipJar.Ledger

/-! ### Credits added up -/

theorem nodup_gatherStep {sums : List (String × Amount)} {c : String × Amount}
    (h : (sums.map (·.1)).Nodup) : ((gatherStep sums c).map (·.1)).Nodup := by
  unfold gatherStep
  split
  · change ((Rows.update Prod.fst sums c.1 fun p => (p.1, p.2 + c.2)).map Prod.fst).Nodup
    rwa [Rows.map_key_update (f := fun p => (p.1, p.2 + c.2)) Prod.fst fun _ => rfl]
  · next hnone =>
    rw [List.map_append, List.nodup_append]
    refine ⟨h, List.nodup_singleton _, fun name hname other hother => ?_⟩
    obtain ⟨d, hd, rfl⟩ := List.mem_map.mp hname
    obtain rfl : other = c.1 := by simpa using hother
    exact fun heq => hnone (List.any_eq_true.mpr ⟨d, hd, beq_iff_eq.mpr heq⟩)

/-- A credit adds to what some of the destinations get, if its own is one of them. -/
theorem sum_gatherStep (p : String → Bool) {sums : List (String × Amount)} {c : String × Amount}
    (h : (sums.map (·.1)).Nodup) :
    ((gatherStep sums c).map fun d => if p d.1 then d.2.units else 0).sum =
      (sums.map fun d => if p d.1 then d.2.units else 0).sum + if p c.1 then c.2.units else 0 := by
  unfold gatherStep
  split
  · next hsome =>
    obtain ⟨d, hd, hname⟩ := List.any_eq_true.mp hsome
    have hmoved := Rows.sum_update Prod.fst (f := fun p => (p.1, p.2 + c.2))
      (fun d => if p d.1 then d.2.units else 0) h hd (beq_iff_eq.mp hname)
    dsimp only at hmoved
    rw [beq_iff_eq.mp hname, Amount.units_add] at hmoved
    change ((Rows.update Prod.fst sums c.1 fun p => (p.1, p.2 + c.2)).map _).sum = _
    by_cases hp : p c.1 = true
    · rw [if_pos hp, if_pos hp] at hmoved
      rw [if_pos hp]
      omega
    · rw [if_neg hp, if_neg hp] at hmoved
      rw [if_neg hp]
      exact hmoved
  · rw [List.map_append, List.sum_append]
    simp

/-- Adding up the credits of each destination leaves what any of them get as it is. -/
theorem sum_gather_where (p : String → Bool) (credits : List (String × Amount)) :
    ((gather credits).map fun d => if p d.1 then d.2.units else 0).sum =
      (credits.map fun d => if p d.1 then d.2.units else 0).sum := by
  have hfold (sums : List (String × Amount)) (h : (sums.map (·.1)).Nodup) :
      ((credits.foldl gatherStep sums).map fun d => if p d.1 then d.2.units else 0).sum =
        (sums.map fun d => if p d.1 then d.2.units else 0).sum +
          (credits.map fun d => if p d.1 then d.2.units else 0).sum := by
    induction credits generalizing sums with
    | nil => simp
    | cons c rest ih =>
      rw [List.foldl_cons, ih _ (nodup_gatherStep h), sum_gatherStep p h, List.map_cons,
        List.sum_cons, Nat.add_assoc]
  rw [gather_eq, hfold [] List.nodup_nil, List.map_nil, List.sum_nil, Nat.zero_add]

/-- Adding up the credits of each destination leaves their sum as it is. -/
theorem sum_gather (credits : List (String × Amount)) :
    Amount.sum ((gather credits).map (·.2)) = Amount.sum (credits.map (·.2)) := by
  apply Amount.ext
  rw [Amount.units_sum, Amount.units_sum, List.map_map, List.map_map]
  simpa [Function.comp_def] using sum_gather_where (fun _ => true) credits

/-! ### Agreement -/

/-- Work that succeeds exactly if an amount is available. Nothing else is ever refused, and the
refusal says what is available. -/
structure Work.SpendsUpTo {α : Type} (work : Work α) (desk : Desk) (name : String)
    (amount available : Amount) : Prop where
  succeeds : (∃ a after, work.Gives desk a after) ↔ amount ≤ available
  refuses : ∀ why after, work desk = (.error why, after) →
    why = .refused (.insufficientFunds name amount available) ∧ available < amount

section
variable {s : Store} {desk : Desk} {name : String} {amount available : Amount}

theorem Work.spendsUpTo {α : Type} {work : Work α} (hs : desk.Holds s)
    (gives : (∃ a after, work.Gives desk a after) ↔ amount ≤ available)
    (fails : available < amount →
      work.FailsOnly s (· = .refused (.insufficientFunds name amount available))) :
    work.SpendsUpTo desk name amount available := by
  refine ⟨gives, fun why after herror => ?_⟩
  have short : available < amount := by
    refine Nat.lt_of_not_le fun enough => ?_
    obtain ⟨_, _, hgives⟩ := gives.mpr enough
    cases hgives.symm.trans herror
  exact ⟨fails short hs herror, short⟩

theorem checkAvailable_spendsUpTo (hs : desk.Holds s) (named : IsName name)
    (summed : (s.held name none).units ≤ columnMax) :
    (checkAvailable (.text name) amount).SpendsUpTo desk name amount
      (s.view name none).available := by
  refine Work.spendsUpTo hs ⟨fun h => ?_, fun enough => ?_⟩ fun short =>
    checkAvailable_overdrawn named summed short
  · obtain ⟨_, _, hgives⟩ := h
    exact Nat.le_of_not_lt fun short => not_gives_checkAvailable hs named short hgives
  · exact ⟨_, _, checkAvailable_gives.mpr
      ⟨s, name, hs, named, summed, Nat.not_lt.mpr enough, rfl, rfl⟩⟩

/-- A debit asks whether the holds and its sum are covered, which is the same unless it is nothing
that is debited. -/
theorem covers_iff_available (something : 1 ≤ amount.units) {except : Option Uuid}
    (fits : (s.balance name).units ≤ columnMax) :
    s.Covers name except amount ↔ amount ≤ (s.view name except).available := by
  rw [Store.covers_iff_of_fits except fits, Amount.le_iff, Balance.units_available]
  change _ ↔ amount.units ≤ (s.balance name).units - (s.held name except).units
  omega

theorem debitAndCredit_spendsUpTo {credits : List (String × Amount)} {except : Option Uuid}
    (hs : desk.Holds s) (named : ∀ party ∈ name :: credits.map (·.1), IsName party)
    (nonempty : credits ≠ []) (total : Amount.sum (credits.map (·.2)) = amount)
    (something : 1 ≤ amount.units) (fits : amount.units ≤ columnMax)
    (counts : s.Counts name except) :
    (debitAndCredit name credits except).SpendsUpTo desk name amount
      (s.view name except).available := by
  rw [← sum_gather] at total
  refine Work.spendsUpTo hs ⟨fun h => ?_, fun enough => ?_⟩ fun short =>
    debitAndCredit_failsOnly.imp fun why denial => ?_
  · obtain ⟨sum, _, hgives⟩ := h
    obtain ⟨t, ht, -, -, hsum, -, -, covered, -⟩ := debitAndCredit_gives.mp hgives
    obtain rfl := hs.unique ht
    rw [← hsum, total] at covered
    exact (covers_iff_available something counts.balance).mp covered
  · exact ⟨amount, _, debitAndCredit_gives.mpr ⟨s, hs, nonempty, named, total, fits, counts.held,
      (covers_iff_available something counts.balance).mpr enough, rfl⟩⟩
  · rw [total] at denial
    cases denial with
    | nobody none => exact absurd (List.map_eq_nil_iff.mp none) nonempty
    | unnamed _ party unnamed => exact absurd (named _ party) unnamed
    | oversized large => exact absurd fits (Int.not_le.mpr large)
    | overflowed _ large => exact absurd counts.held (Int.not_le.mpr large)
    | uncovered => rfl

/-- What an account is shown to have available is what is checked and what is debited, whatever the
tables hold and whichever drop is left out of the holds, as long as the balance and the holds of the
account fit their columns. -/
theorem availability_agrees (hs : desk.Holds s) (credits : List (String × Amount))
    (named : ∀ party ∈ name :: credits.map (·.1), IsName party) (nonempty : credits ≠ [])
    (total : Amount.sum (credits.map (·.2)) = amount) (something : 1 ≤ amount.units)
    (fits : amount.units ≤ columnMax) (counts : s.Counts name none) :
    ∃ view : Option Uuid → Balance,
      (∀ except, ∃ after, (viewOf (.text name) except).Gives desk (view except) after) ∧
      (checkAvailable (.text name) amount).SpendsUpTo desk name amount (view none).available ∧
      ∀ except, (debitAndCredit name credits except).SpendsUpTo desk name amount
        (view except).available := by
  have hname : IsName name := named name List.mem_cons_self
  refine ⟨s.view name, fun except => ?_, checkAvailable_spendsUpTo hs hname counts.held,
    fun except => ?_⟩
  · exact ⟨_, viewOf_gives.mpr ⟨s, name, hs, hname, (counts.leaving except).held, rfl, rfl⟩⟩
  · exact debitAndCredit_spendsUpTo hs named nonempty total something fits (counts.leaving except)

end

/-! ### Holds beyond the balance -/

/-- Alice has ten units and two drops that hold seven each. -/
def crowdedStore : Store :=
  ⟨[⟨"alice", ⟨10⟩, none, false⟩], [], [Sample.drop, { Sample.drop with id := .ofNat 2 }]⟩

/-- Three units cannot be spent but for the payment of one of the drops. -/
theorem crowdedStore_agrees :
    ∃ view : Option Uuid → Balance,
      (view none).available = ⟨0⟩ ∧ (view (some (.ofNat 2))).available = ⟨3⟩ ∧
      (¬∃ available after, (checkAvailable (.text "alice") ⟨3⟩).Gives
        ((Sample.desk 0).keep crowdedStore) available after) ∧
      (¬∃ total after, (debitAndCredit "alice" [("bob", ⟨3⟩)] none).Gives
        ((Sample.desk 0).keep crowdedStore) total after) ∧
      ∃ total after, (debitAndCredit "alice" [("bob", ⟨3⟩)] (some (.ofNat 2))).Gives
        ((Sample.desk 0).keep crowdedStore) total after := by
  have hs : ((Sample.desk 0).keep crowdedStore).Holds crowdedStore := ⟨rfl, rfl⟩
  have hnames : ∀ party ∈ ["alice", "bob"], IsName party := by
    intro party hparty
    rcases List.mem_pair.mp hparty with rfl | rfl <;> rfl
  have hcounts : crowdedStore.Counts "alice" none := ⟨by decide +kernel, by decide +kernel⟩
  obtain ⟨view, hview, hcheck, hdebit⟩ :=
    availability_agrees hs [("bob", ⟨3⟩)] hnames (by simp) rfl (by decide) (by decide) hcounts
  have hshown (except : Option Uuid) : view except = crowdedStore.view "alice" except := by
    obtain ⟨_, hgives⟩ := hview except
    obtain ⟨t, name, ht, hname, -, hview, -⟩ := viewOf_gives.mp hgives
    obtain rfl := hs.unique ht
    obtain rfl := Except.ok.inj hname
    exact hview.symm
  have hnone : (view none).available = ⟨0⟩ := by rw [hshown]; decide +kernel
  have hsome : (view (some (.ofNat 2))).available = ⟨3⟩ := by rw [hshown]; decide +kernel
  refine ⟨view, hnone, hsome, fun h => ?_, fun h => ?_, (hdebit _).succeeds.mpr ?_⟩
  · exact absurd (hcheck.succeeds.mp h) (by rw [hnone]; decide)
  · exact absurd ((hdebit none).succeeds.mp h) (by rw [hnone]; decide)
  · rw [hsome]
    exact Nat.le_refl 3

end TipJar.Ledger
