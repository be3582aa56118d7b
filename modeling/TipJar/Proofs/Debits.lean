import TipJar.Proofs.Availability

/-! A debit is exact or it is refused.

The credits of a debit are added up for each destination before anything is written,
and the sum of them is taken from the source first. A destination may be credited
several times, or nothing, and may be the source itself: in the end every account has
lost and gained exactly what the list of credits says, as long as its balance fits its
column before and after. A sum that is not covered moves nothing, and leaves no trace
but the accounts that were opened to be locked. -/
namespace TipJar.Ledger

/-! ### Accounts opened -/

namespace Store
variable {s t : Store}

/-- Tables that differ at most in accounts of some names that have just been opened, all of which
were missing. -/
structure Opens (s t : Store) (names : List String) : Prop where
  accounts : ∃ missing, t.accounts = s.accounts ++ missing ∧
    ∀ a ∈ missing, a = .opened a.name ∧ a.name ∈ names ∧ s.account? a.name = none
  entries : t.entries = s.entries
  drops : t.drops = s.drops

theorem opens_refl (s : Store) (names : List String) : s.Opens s names where
  accounts := ⟨[], (List.append_nil _).symm, List.forall_mem_nil _⟩
  entries := rfl
  drops := rfl

theorem opens_withAccount {names : List String} {name : String} (h : name ∈ names) :
    s.Opens (s.withAccount name) names := by
  cases ha : s.account? name with
  | some a =>
    have hsame : s.withAccount name = s := by
      unfold withAccount
      rw [ha]
    rw [hsame]
    exact s.opens_refl names
  | none =>
    refine ⟨⟨[.opened name], ?_, ?_⟩, s.entries_withAccount name, s.drops_withAccount name⟩
    · unfold withAccount
      rw [ha]
    · intro a hmem
      obtain rfl := List.mem_singleton.mp hmem
      exact ⟨rfl, h, ha⟩

/-- What is missing among more accounts is missing among fewer. -/
theorem account?_of_append {missing : List Account} {name : String}
    (happend : t.accounts = s.accounts ++ missing) (h : t.account? name = none) :
    s.account? name = none := by
  rw [account?_eq, happend, Rows.find?_append, Option.or_eq_none_iff] at h
  exact h.1

theorem Opens.trans {u : Store} {names : List String} (h : s.Opens t names)
    (h' : t.Opens u names) : s.Opens u names := by
  obtain ⟨missing, haccounts, hmissing⟩ := h.accounts
  obtain ⟨more, hmore, hnew⟩ := h'.accounts
  refine ⟨⟨missing ++ more, ?_, ?_⟩, h'.entries.trans h.entries, h'.drops.trans h.drops⟩
  · rw [hmore, haccounts, List.append_assoc]
  · intro a hmem
    rcases List.mem_append.mp hmem with hold | hlate
    · exact hmissing a hold
    · obtain ⟨hopened, hname, hnone⟩ := hnew a hlate
      exact ⟨hopened, hname, account?_of_append haccounts hnone⟩

theorem opens_opened {names parties : List String} (h : ∀ name ∈ names, name ∈ parties) :
    s.Opens (s.opened names) parties := by
  induction names generalizing s with
  | nil => exact s.opens_refl parties
  | cons n rest ih =>
    rw [List.forall_mem_cons] at h
    exact (opens_withAccount h.1).trans (ih h.2)

end Store

/-! ### What is credited in all -/

theorem credited_eq_sum (credits : List (String × Amount)) (name : String) :
    Store.credited credits name =
      (credits.map fun d => if d.1 == name then d.2.units else 0).sum := by
  unfold Store.credited
  exact Rows.sum_filter (fun d : String × Amount => d.1 == name) (fun d => d.2.units)

/-- Adding up the credits of each destination leaves what each of them gets as it is. -/
theorem credited_gather (credits : List (String × Amount)) (name : String) :
    Store.credited (gather credits) name = Store.credited credits name := by
  rw [credited_eq_sum, credited_eq_sum]
  exact sum_gather_where (· == name) credits

/-- What is moved by taking the sum of some credits from one account. A balance that would outgrow
its column is not told. -/
structure Store.Debited (s t : Store) (source : String) (credits : List (String × Amount)) :
    Prop where
  balances : ∀ name,
    ((s.balance name).units -
        (if source = name then (Amount.sum (credits.map (·.2))).units else 0) +
      Store.credited credits name : Nat) ≤ columnMax →
    (t.balance name).units +
        (if source = name then (Amount.sum (credits.map (·.2))).units else 0) =
      (s.balance name).units + Store.credited credits name
  settings : ∀ name, t.settings name = s.settings name
  entries : t.entries = s.entries
  drops : t.drops = s.drops

section Debits
variable {desk : Desk} {s : Store} {source : String} {credits : List (String × Amount)}
  {except : Option Uuid}

theorem settings_debitedAndCredited (name : String) :
    (s.debitedAndCredited source credits).settings name = s.settings name := by
  unfold Store.settings
  rw [Store.account?_debitedAndCredited]
  by_cases h : name ∈ source :: credits.map (·.1)
  · rw [if_pos h]
    rfl
  · rw [if_neg h]
    cases s.account? name <;> rfl

/-- Where the sum is there to be taken, adding the credits up first makes no difference. -/
theorem debited_gather (fits : (s.balance source).units ≤ columnMax)
    (enough : (Amount.sum (credits.map (·.2))).units ≤ (s.balance source).units) :
    s.Debited (s.debitedAndCredited source (gather credits)) source credits where
  balances name room := by
    rw [Store.balance_debitedAndCredited]
    rw [← sum_gather, ← credited_gather] at room ⊢
    rw [Store.settledBalance_of_fits (fun h => h ▸ fits) room]
    by_cases h : source = name
    · subst h
      rw [← sum_gather] at enough
      rw [if_pos rfl]
      omega
    · rw [if_neg h]
      rfl
  settings := settings_debitedAndCredited
  entries := s.entries_debitedAndCredited source _
  drops := s.drops_debitedAndCredited source _

/-- A sum that is not covered is refused once the accounts are open. -/
theorem debitAndCredit_uncovered (hs : desk.Holds s) (nonempty : credits ≠ [])
    (named : ∀ party ∈ source :: credits.map (·.1), IsName party)
    (fits : (Amount.sum (credits.map (·.2))).units ≤ columnMax) (counts : s.Counts source except)
    (short : (s.balance source).units <
      (s.held source except).units + (Amount.sum (credits.map (·.2))).units) :
    ∃ t, s.Opens t (source :: credits.map (·.1)) ∧
      (debitAndCredit source credits except).FailsWith desk
        (.refused (.insufficientFunds source (.sum (credits.map (·.2)))
          (s.view source except).available)) t := by
  have hsource : IsName source := named source List.mem_cons_self
  have hcredited : ∀ c ∈ credits, ∃ name,
      (checkName (.text c.1)).mapError Fault.refused = .ok name := by
    intro c hc
    exact ⟨c.1, checked_refused.mpr
      (named c.1 (List.mem_cons_of_mem _ (List.mem_map_of_mem hc)))⟩
  have hlocked := lock_gives.mpr
    ⟨s, hs, fun name hname => named name (mem_parties_gather.mp hname), rfl, rfl⟩
  generalize hnames : lockOrder (source :: (gather credits).map (·.1)) = names at hlocked
  have hopened := hs.keep (s.opened names)
  refine ⟨(s.opened names).withAccount source, ?_, ?_⟩
  · refine (Store.opens_opened fun name hname => ?_).trans
      (Store.opens_withAccount List.mem_cons_self)
    rw [← hnames, mem_lockOrder] at hname
    exact mem_parties_gather.mp hname
  · unfold debitAndCredit
    rw [if_neg (by rwa [List.isEmpty_iff])]
    refine ((Work.gives_forIn_check (u := ⟨⟩)).mpr ⟨hcredited, rfl⟩).failsWith ?_
    refine hlocked.failsWith ?_
    dsimp only
    rw [sum_gather]
    refine ((Work.gives_column (u := ⟨⟩)).mpr
      ⟨⟨_, hopened⟩, natCast_fits.mpr fits, rfl⟩).failsWith ?_
    refine (Work.gives_tables.mpr ⟨hopened, rfl⟩).failsWith ?_
    have hsummed : ((s.opened names).held source except).units ≤ columnMax := by
      rw [Store.held_opened]
      exact counts.held
    have hdenied : ¬(s.opened names).Covers source except (.sum (credits.map (·.2))) := by
      rw [Store.covers_opened, Store.covers_iff_of_fits except counts.balance]
      exact Nat.not_le_of_lt short
    refine (summed_gives.mpr ⟨List.forall_mem_singleton.mpr hsummed, rfl⟩).failsWith (a := ⟨⟩) ?_
    rw [if_neg hdenied]
    refine (viewOf_gives.mpr ⟨_, source, hopened, hsource, hsummed, rfl, rfl⟩).failsWith ?_
    refine ((Work.gives_note (u := ⟨⟩)).mpr rfl).failsWith ?_
    rw [view_opened]
    exact Work.failsWith_refuse ((hopened.keep _).note ..)

end Debits

/-- A debit of some credits that sum up to a total succeeds exactly if the holds leave room for the
total, as long as the balance and the holds of the source fit their columns. Then it moves what the
credits say and nothing else; otherwise it is refused, and at most opens the accounts that are
missing. -/
theorem debitAndCredit_exact {desk : Desk} {s : Store} {source : String} {total : Amount}
    (credits : List (String × Amount)) (except : Option Uuid) (hs : desk.Holds s)
    (nonempty : credits ≠ []) (named : ∀ party ∈ source :: credits.map (·.1), IsName party)
    (sums : Amount.sum (credits.map (·.2)) = total) (fits : total.units ≤ columnMax)
    (counts : s.Counts source except) :
    ((∃ sum after, (debitAndCredit source credits except).Gives desk sum after) ↔
      (s.held source except).units + total.units ≤ (s.balance source).units) ∧
    (∀ sum after, (debitAndCredit source credits except).Gives desk sum after →
      sum = total ∧ ∃ t, after.Holds t ∧ s.Debited t source credits) ∧
    ∀ why after, debitAndCredit source credits except desk = (.error why, after) →
      why = .refused (.insufficientFunds source total (s.view source except).available) ∧
        ∃ t, after.Holds t ∧ s.Opens t (source :: credits.map (·.1)) := by
  subst sums
  have hcovers : s.Covers source except (.sum (credits.map (·.2))) ↔
      (s.held source except).units + (Amount.sum (credits.map (·.2))).units ≤
        (s.balance source).units := Store.covers_iff_of_fits except counts.balance
  have hgives {sum : Amount} {after : Desk}
      (h : (debitAndCredit source credits except).Gives desk sum after) :
      sum = .sum (credits.map (·.2)) ∧
        (s.held source except).units + sum.units ≤ (s.balance source).units ∧
        after = desk.keep (s.debitedAndCredited source (gather credits)) := by
    obtain ⟨t, ht, -, -, hsum, -, -, covered, rfl⟩ := debitAndCredit_gives.mp h
    obtain rfl := hs.unique ht
    rw [sum_gather] at hsum
    subst hsum
    exact ⟨rfl, hcovers.mp covered, rfl⟩
  refine ⟨⟨fun h => ?_, fun covered => ?_⟩, fun sum after h => ?_, fun why after h => ?_⟩
  · obtain ⟨sum, after, h⟩ := h
    obtain ⟨rfl, covered, -⟩ := hgives h
    exact covered
  · exact ⟨_, _, debitAndCredit_gives.mpr ⟨s, hs, nonempty, named, sum_gather credits, fits,
      counts.held, hcovers.mpr covered, rfl⟩⟩
  · obtain ⟨rfl, covered, rfl⟩ := hgives h
    exact ⟨rfl, _, hs.keep _, debited_gather counts.balance (by omega)⟩
  · have short : (s.balance source).units <
        (s.held source except).units + (Amount.sum (credits.map (·.2))).units := by
      by_contra covered
      have hdone := debitAndCredit_gives.mpr ⟨s, hs, nonempty, named, sum_gather credits, fits,
        counts.held, hcovers.mpr (Nat.le_of_not_lt covered), rfl⟩
      cases h.symm.trans hdone
    obtain ⟨t, opens, fails⟩ := debitAndCredit_uncovered hs nonempty named fits counts short
    obtain ⟨hwhy, ht⟩ := fails.unique h
    exact ⟨hwhy, t, ht, opens⟩

/-! ### A destination credited twice, and the source itself -/

/-- Alice has ten units, and may not start transfers. -/
def blockedStore : Store := ⟨[⟨"alice", ⟨10⟩, none, true⟩], [], []⟩

def mixedCredits : List (String × Amount) := [("bob", ⟨3⟩), ("alice", ⟨2⟩), ("bob", ⟨1⟩)]

/-- Six units are debited, and two of them come back. -/
theorem mixedCredits_debited :
    ∃ after t, (debitAndCredit "alice" mixedCredits none).Gives
        ((Sample.desk 0).keep blockedStore) ⟨6⟩ after ∧ after.Holds t ∧
      t.balance "alice" = ⟨6⟩ ∧ t.balance "bob" = ⟨4⟩ ∧ t.settings "alice" = (none, true) := by
  have hs : ((Sample.desk 0).keep blockedStore).Holds blockedStore := ⟨rfl, rfl⟩
  have named : ∀ party ∈ ["alice", "bob", "alice", "bob"], IsName party := by
    intro party hparty
    simp only [List.mem_cons, List.not_mem_nil, or_false] at hparty
    rcases hparty with rfl | rfl | rfl | rfl <;> rfl
  obtain ⟨succeeds, moves, -⟩ :=
    debitAndCredit_exact mixedCredits none hs (by decide) named rfl (by decide)
      ⟨by decide +kernel, by decide +kernel⟩
  obtain ⟨sum, after, hgives⟩ := succeeds.mpr (by decide +kernel)
  obtain ⟨rfl, t, ht, hmoved⟩ := moves sum after hgives
  refine ⟨after, t, hgives, ht, Amount.ext ?_, Amount.ext ?_, hmoved.settings "alice"⟩
  · have halice := hmoved.balances "alice" (by decide +kernel)
    have hleft : (blockedStore.balance "alice").units +
        Store.credited mixedCredits "alice" = 12 := by decide +kernel
    have hsum : (Amount.sum (mixedCredits.map (·.2))).units = 6 := by decide +kernel
    rw [if_pos rfl, hleft, hsum] at halice
    exact Nat.add_right_cancel halice
  · have hbob := hmoved.balances "bob" (by decide +kernel)
    have hleft : (blockedStore.balance "bob").units +
        Store.credited mixedCredits "bob" = 4 := by decide +kernel
    rw [if_neg (by decide), hleft] at hbob
    exact hbob

end TipJar.Ledger
