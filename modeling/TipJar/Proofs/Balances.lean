import TipJar.Ledger.Store
import TipJar.Proofs.Arithmetic
import TipJar.Proofs.Rows

/-! Balances.

How the few writes on accounts move what is kept there: opening an account moves
nothing, a credit moves one balance up, a debit moves one down. A balance is moved
as its column calculates, and exactly as long as it fits the column; then the sum of
all balances moves along. Everything is said of units, which add up. -/
namespace TipJar

/-- The units of a sum. -/
theorem Amount.units_sum (as : List Amount) : (Amount.sum as).units = (as.map (·.units)).sum := by
  induction as with
  | nil => rfl
  | cons a as ih => rw [Amount.units_sum_cons, List.map_cons, List.sum_cons, ih]

namespace Ledger.Store

/-- No two accounts have the same name. -/
def NamesDiffer (s : Store) : Prop := (s.accounts.map (·.name)).Nodup

/-- Opens the accounts of several names. -/
def opened (s : Store) (names : List String) : Store := names.foldl withAccount s

/-- Adds to several balances, one after another. -/
def creditAll (s : Store) (credits : List (String × Amount)) : Store :=
  credits.foldl (fun s c => s.credit c.1 c.2) s

/-- What the column of a balance makes of it when the credits of a name are added one by one. -/
def topped (credits : List (String × Amount)) (name : String) (balance : Nat) : Nat :=
  ((credits.filter (·.1 == name)).map (·.2.units)).foldl columnSum balance

/-- What some credits add to the balance of a name. -/
def credited (credits : List (String × Amount)) (name : String) : Nat :=
  ((credits.filter (·.1 == name)).map (·.2.units)).sum

theorem credited_cons (c : String × Amount) (credits : List (String × Amount)) (name : String) :
    credited (c :: credits) name =
      (if c.1 = name then c.2.units else 0) + credited credits name := by
  unfold credited
  by_cases h : c.1 = name
  · rw [List.filter_cons_of_pos (by simp [h]), if_pos h, List.map_cons, List.sum_cons]
  · rw [List.filter_cons_of_neg (by simp [h]), if_neg h, Nat.zero_add]

theorem credited_append (credits more : List (String × Amount)) (name : String) :
    credited (credits ++ more) name = credited credits name + credited more name := by
  unfold credited
  rw [List.filter_append, List.map_append, List.sum_append]

theorem filter_of_not_mem {credits : List (String × Amount)} {name : String}
    (h : name ∉ credits.map (·.1)) : credits.filter (·.1 == name) = [] :=
  List.filter_eq_nil_iff.mpr fun c hc hname =>
    h (List.mem_map.mpr ⟨c, hc, beq_iff_eq.mp hname⟩)

theorem topped_of_not_mem {credits : List (String × Amount)} {name : String} {balance : Nat}
    (h : name ∉ credits.map (·.1)) : topped credits name balance = balance := by
  rw [topped, filter_of_not_mem h]
  rfl

theorem topped_cons (c : String × Amount) (credits : List (String × Amount)) (name : String)
    (balance : Nat) :
    topped (c :: credits) name balance =
      topped credits name (if c.1 = name then columnSum balance c.2.units else balance) := by
  unfold topped
  by_cases h : c.1 = name
  · rw [List.filter_cons_of_pos (by simp [h]), if_pos h, List.map_cons, List.foldl_cons]
  · rw [List.filter_cons_of_neg (by simp [h]), if_neg h]

/-- Credits that fit the column with the balance are added exactly. -/
theorem topped_of_fits {credits : List (String × Amount)} {name : String} {balance : Nat}
    (h : (balance + credited credits name : Nat) ≤ columnMax) :
    topped credits name balance = balance + credited credits name := by
  induction credits generalizing balance with
  | nil => rfl
  | cons c rest ih =>
    rw [credited_cons] at h ⊢
    rw [topped_cons]
    split at h
    · next same =>
      rw [if_pos same, if_pos same, columnSum_of_fits (by omega), ih (by omega), Nat.add_assoc]
    · next other => rw [if_neg other, if_neg other, Nat.zero_add, ih (by omega)]

variable (s : Store) (name other : String) (amount : Amount)

theorem account?_eq : s.account? name = Rows.find? Account.name s.accounts name := rfl

theorem name_of_account? {a : Account} (h : s.account? name = some a) : a.name = name :=
  Rows.key_of_find? Account.name h

theorem balance_of_account? {a : Account} (h : s.account? name = some a) :
    s.balance name = a.balance := by
  unfold balance
  rw [h, Option.map_some, Option.getD_some]

theorem units_custodial : s.custodial.units = (s.accounts.map (·.balance.units)).sum := by
  unfold custodial
  rw [Amount.units_sum, List.map_map]
  rfl

/-! ### Opening -/

@[simp] theorem drops_withAccount : (s.withAccount name).drops = s.drops := by
  unfold withAccount
  split <;> rfl

@[simp] theorem entries_withAccount : (s.withAccount name).entries = s.entries := by
  unfold withAccount
  split <;> rfl

theorem account?_withAccount :
    (s.withAccount name).account? other =
      if other = name then some ((s.account? name).getD (.opened name)) else s.account? other := by
  unfold withAccount
  split
  · next a ha =>
    by_cases h : other = name
    · rw [if_pos h, h, ha, Option.getD_some]
    · rw [if_neg h]
  · next hnone =>
    rw [account?_eq, Rows.find?_append, Rows.find?_cons]
    show (s.account? other).or (if name = other then some (.opened name) else none) = _
    by_cases h : other = name
    · rw [if_pos h, if_pos h.symm, h, hnone, Option.none_or, Option.getD_none]
    · rw [if_neg h, if_neg (Ne.symm h), Option.or_none]

theorem balance_getD_opened : ((s.account? name).getD (.opened name)).balance = s.balance name := by
  unfold balance
  cases s.account? name <;> rfl

theorem balance_withAccount : (s.withAccount name).balance other = s.balance other := by
  by_cases h : other = name
  · rw [h, ← balance_getD_opened s name, balance, account?_withAccount, if_pos rfl]
    rfl
  · rw [balance, account?_withAccount, if_neg h]
    rfl

theorem namesDiffer_withAccount {s : Store} (h : s.NamesDiffer) :
    (s.withAccount name).NamesDiffer := by
  unfold withAccount
  split
  · exact h
  · next hnone =>
    have hnew := (Rows.find?_eq_none Account.name).mp ((account?_eq s name).symm.trans hnone)
    unfold NamesDiffer
    rw [List.map_append, List.nodup_append]
    refine ⟨h, by simp, ?_⟩
    intro a ha b hb
    obtain ⟨row, hrow, rfl⟩ := List.mem_map.mp ha
    rw [List.mem_singleton.mp hb]
    exact hnew row hrow

theorem custodial_withAccount : (s.withAccount name).custodial.units = s.custodial.units := by
  unfold withAccount
  split
  · rfl
  · rw [units_custodial, units_custodial, List.map_append, List.sum_append]
    rfl

section Opened
variable (names : List String)

@[simp] theorem drops_opened : (s.opened names).drops = s.drops := by
  unfold opened
  induction names generalizing s with
  | nil => rfl
  | cons n rest ih => rw [List.foldl_cons, ih, drops_withAccount]

@[simp] theorem entries_opened : (s.opened names).entries = s.entries := by
  unfold opened
  induction names generalizing s with
  | nil => rfl
  | cons n rest ih => rw [List.foldl_cons, ih, entries_withAccount]

/-- Exactly the names asked for have an account now, and those that had one kept it. -/
theorem account?_opened :
    (s.opened names).account? name =
      if name ∈ names then some ((s.account? name).getD (.opened name)) else s.account? name := by
  induction names generalizing s with
  | nil => rfl
  | cons n rest ih =>
    show ((s.withAccount n).opened rest).account? name = _
    rw [ih, account?_withAccount]
    by_cases hn : name = n
    · subst hn
      simp
    · simp [hn]

theorem balance_opened : (s.opened names).balance name = s.balance name := by
  unfold opened
  induction names generalizing s with
  | nil => rfl
  | cons n rest ih => rw [List.foldl_cons, ih, balance_withAccount]

theorem namesDiffer_opened {s : Store} (h : s.NamesDiffer) : (s.opened names).NamesDiffer := by
  unfold opened
  induction names generalizing s with
  | nil => exact h
  | cons n rest ih => exact ih (namesDiffer_withAccount n h)

theorem custodial_opened : (s.opened names).custodial.units = s.custodial.units := by
  unfold opened
  induction names generalizing s with
  | nil => rfl
  | cons n rest ih => rw [List.foldl_cons, ih, custodial_withAccount]

end Opened

/-! ### Changing one account -/

section Update
variable {f : Account → Account} (hf : ∀ a, (f a).name = a.name)
include hf

theorem account?_updateAccount :
    (s.updateAccount name f).account? other =
      if other = name then (s.account? name).map f else s.account? other :=
  Rows.find?_update Account.name hf

theorem namesDiffer_updateAccount {s : Store} (h : s.NamesDiffer) :
    (s.updateAccount name f).NamesDiffer := by
  show ((Rows.update Account.name s.accounts name f).map Account.name).Nodup
  rw [Rows.map_key_update Account.name hf]
  exact h

/-- A change that keeps the balance of every account keeps all balances. -/
theorem balance_updateAccount (hb : ∀ a, (f a).balance = a.balance) :
    (s.updateAccount name f).balance other = s.balance other := by
  unfold balance
  rw [account?_updateAccount s name other hf]
  by_cases h : other = name
  · rw [if_pos h, h]
    cases s.account? name with
    | none => rfl
    | some a => exact hb a
  · rw [if_neg h]

end Update

theorem custodial_updateAccount {f : Account → Account} (hb : ∀ a, (f a).balance = a.balance) :
    (s.updateAccount name f).custodial.units = s.custodial.units := by
  rw [units_custodial, units_custodial]
  exact Rows.sum_update_of_eq Account.name _ fun a _ _ => congrArg Amount.units (hb a)

/-! ### Credits and debits -/

theorem account?_credit :
    (s.credit name amount).account? other =
      if other = name then
        (s.account? name).map fun a =>
          { a with balance := ⟨columnSum a.balance.units amount.units⟩ }
      else s.account? other :=
  account?_updateAccount s name other fun _ => rfl

theorem account?_debit :
    (s.debit name amount).account? other =
      if other = name then
        (s.account? name).map fun a =>
          { a with balance := ⟨(columnDifference a.balance.units amount.units).toNat⟩ }
      else s.account? other :=
  account?_updateAccount s name other fun _ => rfl

theorem balance_credit (there : (s.account? name).isSome) :
    ((s.credit name amount).balance other).units =
      if name = other then columnSum (s.balance other).units amount.units
      else (s.balance other).units := by
  unfold balance
  rw [account?_credit]
  by_cases h : other = name
  · obtain ⟨a, ha⟩ := Option.isSome_iff_exists.mp there
    rw [if_pos h, h, if_pos rfl, ha]
    rfl
  · rw [if_neg h, if_neg (Ne.symm h)]

theorem balance_debit :
    ((s.debit name amount).balance other).units =
      if name = other then (columnDifference (s.balance other).units amount.units).toNat
      else (s.balance other).units := by
  unfold balance
  rw [account?_debit]
  by_cases h : other = name
  · rw [if_pos h, h, if_pos rfl]
    cases s.account? name with
    | none =>
      have hzero : columnDifference 0 amount.units = (0 : Nat) - (amount.units : Int) :=
        columnDifference_of_fits (by decide) _
      show 0 = (columnDifference 0 amount.units).toNat
      omega
    | some a => rfl
  · rw [if_neg h, if_neg (Ne.symm h)]

theorem namesDiffer_credit {s : Store} (h : s.NamesDiffer) :
    (s.credit name amount).NamesDiffer := by
  unfold credit
  exact namesDiffer_updateAccount name (by intro _; rfl) h

theorem namesDiffer_debit {s : Store} (h : s.NamesDiffer) : (s.debit name amount).NamesDiffer := by
  unfold debit
  exact namesDiffer_updateAccount name (by intro _; rfl) h

/-- The sum of all balances moves as the balance of one account does. -/
theorem custodial_updateAccount_of_some {s : Store} {a : Account} (f : Account → Account)
    (hn : s.NamesDiffer) (ha : s.account? name = some a) :
    (s.updateAccount name f).custodial.units + a.balance.units =
      s.custodial.units + (f a).balance.units := by
  rw [units_custodial, units_custodial]
  exact Rows.sum_update Account.name (fun a => a.balance.units) hn
    (Rows.mem_of_find? Account.name ha) (name_of_account? s name ha)

theorem custodial_credit {s : Store} (hn : s.NamesDiffer) (there : (s.account? name).isSome)
    (fits : ((s.balance name).units + amount.units : Nat) ≤ columnMax) :
    (s.credit name amount).custodial.units = s.custodial.units + amount.units := by
  obtain ⟨a, ha⟩ := Option.isSome_iff_exists.mp there
  rw [balance_of_account? s name ha] at fits
  have hsum := custodial_updateAccount_of_some name
    (fun a => { a with balance := ⟨columnSum a.balance.units amount.units⟩ }) hn ha
  simp only [columnSum_of_fits fits] at hsum
  unfold credit
  omega

theorem custodial_debit {s : Store} (hn : s.NamesDiffer)
    (h : amount.units ≤ (s.balance name).units) (fits : (s.balance name).units ≤ columnMax) :
    (s.debit name amount).custodial.units + amount.units = s.custodial.units := by
  cases ha : s.account? name with
  | none =>
    -- Only nothing can be taken from an account that is not there.
    have hzero : (s.balance name).units = 0 := by
      unfold balance
      rw [ha]
      rfl
    have hsame : (s.debit name amount).custodial.units = s.custodial.units := by
      rw [units_custodial, units_custodial]
      refine Rows.sum_update_of_eq Account.name _ fun a hmem hname => ?_
      exact absurd hname ((Rows.find?_eq_none Account.name).mp ha a hmem)
    omega
  | some a =>
    rw [balance_of_account? s name ha] at h fits
    have hsum := custodial_updateAccount_of_some name
      (fun a => { a with balance := ⟨(columnDifference a.balance.units amount.units).toNat⟩ }) hn ha
    simp only [columnDifference_of_fits fits] at hsum
    unfold debit
    omega

theorem balance_le_custodial : (s.balance name).units ≤ s.custodial.units := by
  rw [units_custodial]
  cases ha : s.account? name with
  | none =>
    unfold balance
    rw [ha]
    exact Nat.zero_le _
  | some a =>
    rw [balance_of_account? s name ha]
    exact List.single_le_sum (fun _ _ => Nat.zero_le _) _
      (List.mem_map_of_mem (Rows.mem_of_find? Account.name ha))

/-- Two balances together are no more than all of them. -/
theorem balance_add_le_custodial {s : Store} {name other : String} (hn : s.NamesDiffer)
    (apart : name ≠ other) (fits : (s.balance other).units ≤ columnMax) :
    (s.balance name).units + (s.balance other).units ≤ s.custodial.units := by
  -- Empty the one account; the other is untouched, and still part of the rest.
  have hrest := custodial_debit other (s.balance other) hn (Nat.le_refl _) fits
  have hname := (s.debit other (s.balance other)).balance_le_custodial name
  rw [balance_debit, if_neg (Ne.symm apart)] at hname
  omega

section CreditAll
variable (credits : List (String × Amount))

@[simp] theorem drops_creditAll : (s.creditAll credits).drops = s.drops := by
  unfold creditAll
  induction credits generalizing s with
  | nil => rfl
  | cons c rest ih => rw [List.foldl_cons, ih]; rfl

@[simp] theorem entries_creditAll : (s.creditAll credits).entries = s.entries := by
  unfold creditAll
  induction credits generalizing s with
  | nil => rfl
  | cons c rest ih => rw [List.foldl_cons, ih]; rfl

/-- Credits leave every account in place, and change nothing of it but its balance. -/
theorem account?_creditAll :
    (s.creditAll credits).account? name =
      (s.account? name).map fun a =>
        { a with balance := ⟨topped credits name a.balance.units⟩ } := by
  induction credits generalizing s with
  | nil =>
    show s.account? name = _
    cases s.account? name <;> rfl
  | cons c rest ih =>
    show ((s.credit c.1 c.2).creditAll rest).account? name = _
    rw [ih, account?_credit]
    simp only [topped_cons]
    by_cases h : name = c.1
    · rw [if_pos h, h]
      cases s.account? c.1 <;> simp
    · rw [if_neg h]
      simp only [if_neg (Ne.symm h)]

theorem isSome_account?_creditAll :
    ((s.creditAll credits).account? name).isSome = (s.account? name).isSome := by
  rw [account?_creditAll, Option.isSome_map]

theorem balance_creditAll (there : ∀ c ∈ credits, (s.account? c.1).isSome) :
    ((s.creditAll credits).balance name).units = topped credits name (s.balance name).units := by
  unfold balance
  rw [account?_creditAll]
  cases ha : s.account? name with
  | some a => rfl
  | none =>
    -- No credit is for an account that is not there.
    refine (topped_of_not_mem fun hmem => ?_).symm
    obtain ⟨c, hc, rfl⟩ := List.mem_map.mp hmem
    have := there c hc
    rw [ha] at this
    cases this

theorem namesDiffer_creditAll {s : Store} (h : s.NamesDiffer) :
    (s.creditAll credits).NamesDiffer := by
  unfold creditAll
  induction credits generalizing s with
  | nil => exact h
  | cons c rest ih => exact ih (namesDiffer_credit c.1 c.2 h)

theorem custodial_creditAll {s : Store} (hn : s.NamesDiffer)
    (there : ∀ c ∈ credits, (s.account? c.1).isSome)
    (fits : ∀ name, ((s.balance name).units + credited credits name : Nat) ≤ columnMax) :
    (s.creditAll credits).custodial.units =
      s.custodial.units + (credits.map (·.2.units)).sum := by
  induction credits generalizing s with
  | nil => rfl
  | cons c rest ih =>
    have hfirst := there c List.mem_cons_self
    have hroom : ((s.balance c.1).units + c.2.units : Nat) ≤ columnMax := by
      have hall := fits c.1
      rw [credited_cons, if_pos rfl] at hall
      omega
    have hrest : ∀ d ∈ rest, ((s.credit c.1 c.2).account? d.1).isSome := by
      intro d hd
      have := isSome_account?_creditAll s d.1 [c]
      exact this.trans (there d (List.mem_cons_of_mem c hd))
    have hlater (name : String) :
        (((s.credit c.1 c.2).balance name).units + credited rest name : Nat) ≤ columnMax := by
      have hall := fits name
      rw [credited_cons] at hall
      rw [balance_credit s c.1 name c.2 hfirst]
      split at hall
      · next same =>
        subst same
        rw [if_pos rfl, columnSum_of_fits hroom, Nat.add_assoc]
        exact hall
      · next other =>
        rw [if_neg other]
        omega
    show ((s.credit c.1 c.2).creditAll rest).custodial.units = _
    rw [ih (namesDiffer_credit c.1 c.2 hn) hrest hlater, custodial_credit c.1 c.2 hn hfirst hroom,
      List.map_cons, List.sum_cons, Nat.add_assoc]

end CreditAll
end Ledger.Store
end TipJar
