import TipJar.Ledger.Accounts
import TipJar.Proofs.Holds
import TipJar.Proofs.Work

/-! Work on accounts, in one line each.

Opening, locking, depositing and debiting are written as work that checks, reads
and writes by turns. Here each is summed up: when it succeeds, what it gives, and
the one set of tables it leaves. What is built from them is read from these lines,
and never from their definitions. -/
namespace TipJar.Ledger

variable {desk after : Desk}

/-! ### Names -/

/-- A text that can name an account. -/
def IsName (name : String) : Prop := checkName (.text name) = .ok name

theorem checked_refused {α : Type} {x : Except Refusal α} {a : α} :
    x.mapError Fault.refused = .ok a ↔ x = .ok a := by
  cases x <;> simp [Except.mapError]

/-- What is checked for a name is a text, and the name is that text. -/
theorem checkName_ok {v : Value} {name : String} (h : checkName v = .ok name) :
    v.text? = some name ∧ IsName name := by
  have hkeep : v.text? = some name := by
    unfold checkName at h
    split at h
    · next text htext =>
      split at h
      · cases h
      · split at h
        · cases h
        · rw [htext, Except.ok.inj h]
    · cases h
  refine ⟨hkeep, ?_⟩
  unfold IsName checkName
  unfold checkName at h
  rw [hkeep] at h
  simp only [Value.text, Value.text?] at h ⊢
  split at h
  · cases h
  · next hblank =>
    split at h
    · cases h
    · next hlong => rw [if_neg hblank, if_neg hlong]

theorem mem_distinct {name : String} {names : List String} :
    name ∈ distinct names ↔ name ∈ names := by
  induction names with
  | nil => simp [distinct]
  | cons n rest ih =>
    unfold distinct
    by_cases h : name = n
    · simp [h]
    · simp [h, ih]

/-- Accounts are locked in another order, but the same ones. -/
theorem mem_lockOrder {name : String} {names : List String} :
    name ∈ lockOrder names ↔ name ∈ names := by
  unfold lockOrder
  rw [List.mem_mergeSort, mem_distinct]

/-! ### Opening and locking -/

theorem ensure_gives {who : Value} {account : Account} :
    (ensure who).Gives desk account after ↔
      ∃ s name, desk.Holds s ∧ checkName who = .ok name ∧
        (s.account? name).getD (.opened name) = account ∧
        desk.keep (s.withAccount name) = after := by
  unfold ensure
  simp only [Work.gives_bind, Work.gives_check, checked_refused, Work.gives_tables]
  constructor
  · intro h
    obtain ⟨name, _, ⟨hname, rfl⟩, s, _, ⟨hs, rfl⟩, h⟩ := h
    refine ⟨s, name, hs, hname, ?_⟩
    cases ha : s.account? name with
    | some a =>
      rw [ha] at h
      obtain ⟨rfl, rfl⟩ := Work.gives_pure.mp h
      refine ⟨rfl, ?_⟩
      unfold Store.withAccount
      rw [ha]
      exact hs.keep_self
    | none =>
      rw [ha] at h
      simp only [Work.gives_bind, Work.gives_write, Work.gives_pure] at h
      obtain ⟨_, _, ⟨t, ht, rfl⟩, rfl, rfl⟩ := h
      rw [ht.unique hs]
      exact ⟨rfl, rfl⟩
  · intro h
    obtain ⟨s, name, hs, hname, haccount, hafter⟩ := h
    refine ⟨name, desk, ⟨hname, rfl⟩, s, desk, ⟨hs, rfl⟩, ?_⟩
    cases ha : s.account? name with
    | some a =>
      rw [ha, Option.getD_some] at haccount
      unfold Store.withAccount at hafter
      rw [ha] at hafter
      exact Work.gives_pure.mpr ⟨haccount, hs.keep_self.symm.trans hafter⟩
    | none =>
      rw [ha, Option.getD_none] at haccount
      simp only [Work.gives_bind, Work.gives_write, Work.gives_pure]
      exact ⟨⟨⟩, _, ⟨s, hs, rfl⟩, haccount, hafter⟩

/-- The account that was asked for is there afterwards. -/
theorem isSome_withAccount (s : Store) (name : String) :
    ((s.withAccount name).account? name).isSome := by
  rw [Store.account?_withAccount, if_pos rfl, Option.isSome_some]

theorem lockOne_gives {who : Value} {u : Unit} :
    (lockOne who).Gives desk u after ↔
      ∃ s name, desk.Holds s ∧ checkName who = .ok name ∧
        desk.keep (s.withAccount name) = after := by
  have hopen : (ensure who >>= fun _ => pure ()).Gives desk u after ↔
      ∃ s name, desk.Holds s ∧ checkName who = .ok name ∧
        desk.keep (s.withAccount name) = after := by
    simp only [Work.gives_bind, ensure_gives, Work.gives_pure]
    constructor
    · intro h
      obtain ⟨_, _, ⟨s, name, hs, hname, rfl, rfl⟩, -, rfl⟩ := h
      exact ⟨s, name, hs, hname, rfl⟩
    · intro h
      obtain ⟨s, name, hs, hname, rfl⟩ := h
      exact ⟨_, _, ⟨s, name, hs, hname, rfl, rfl⟩, trivial, rfl⟩
  cases who with
  | scalar | tuple => exact hopen
  | list items =>
    refine ⟨fun h => absurd h Work.gives_throw, ?_⟩
    intro h
    obtain ⟨_, _, _, hname, _⟩ := h
    cases hname
  | map entries =>
    refine ⟨fun h => absurd h Work.gives_throw, ?_⟩
    intro h
    obtain ⟨_, _, _, hname, _⟩ := h
    cases hname

/-- Opening several accounts, one after another, is opening them at once. -/
theorem openEach_gives {names : List String} {u : PUnit} {s : Store} (hs : desk.Holds s) :
    (forIn names PUnit.unit fun name _ =>
        (ensure (.text name) >>= fun _ => pure (ForInStep.yield PUnit.unit))).Gives desk u after ↔
      (∀ name ∈ names, IsName name) ∧ desk.keep (s.opened names) = after := by
  induction names generalizing desk s with
  | nil => simp [Store.opened, hs.keep_self]
  | cons n rest ih =>
    rw [Work.gives_forIn_cons]
    simp only [ensure_gives, List.forall_mem_cons]
    constructor
    · intro h
      obtain ⟨_, _, ⟨t, name, ht, hname, rfl, rfl⟩, hrest⟩ := h
      obtain ⟨htext, hvalid⟩ := checkName_ok hname
      obtain rfl : n = name := Option.some.inj htext
      rw [ht.unique hs] at hrest
      obtain ⟨hnames, h⟩ := (ih (hs.keep _)).mp hrest
      exact ⟨⟨hvalid, hnames⟩, h⟩
    · intro h
      obtain ⟨⟨hvalid, hnames⟩, h⟩ := h
      exact ⟨_, _, ⟨s, n, hs, hvalid, rfl, rfl⟩, (ih (hs.keep _)).mpr ⟨hnames, h⟩⟩

theorem lock_gives {names : List String} {accounts : List Account} :
    (lock names).Gives desk accounts after ↔
      ∃ s, desk.Holds s ∧ (∀ name ∈ names, IsName name) ∧
        (lockOrder names).filterMap (s.opened (lockOrder names)).account? = accounts ∧
        desk.keep (s.opened (lockOrder names)) = after := by
  unfold lock
  simp only [Work.gives_bind, Work.gives_read]
  constructor
  · intro h
    obtain ⟨_, mid, hopen, t, ht, haccounts, rfl⟩ := h
    -- There were tables before: either nothing was opened, or the first account was.
    have hbefore : ∃ s, desk.Holds s := by
      cases hnames : lockOrder names with
      | nil =>
        rw [hnames] at hopen
        rw [Work.gives_forIn_nil.mp hopen]
        exact ⟨t, ht⟩
      | cons n rest =>
        rw [hnames] at hopen
        obtain ⟨_, _, hfirst, _⟩ := Work.gives_forIn_cons.mp hopen
        obtain ⟨s, _, hs, _⟩ := ensure_gives.mp hfirst
        exact ⟨s, hs⟩
    obtain ⟨s, hs⟩ := hbefore
    obtain ⟨hnames, rfl⟩ := (openEach_gives hs).mp hopen
    rw [ht.unique (hs.keep _)] at haccounts
    exact ⟨s, hs, fun n hn => hnames n (mem_lockOrder.mpr hn), haccounts, rfl⟩
  · intro h
    obtain ⟨s, hs, hnames, haccounts, rfl⟩ := h
    exact ⟨⟨⟩, _, (openEach_gives hs).mpr ⟨fun n hn => hnames n (mem_lockOrder.mp hn), rfl⟩, _,
      hs.keep _, haccounts, rfl⟩

/-! ### Reading -/

/-- What names an account is looked up by that name. -/
theorem lookupKey_of_text {who : Value} {name : String} (h : who.text? = some name) :
    lookupKey who = .ok (some name) := by
  unfold Value.text? at h
  split at h
  · rw [← h]; rfl
  · rw [← h]; rfl
  · rw [← h]; rfl
  · cases h

theorem summed_gives {sums : List Amount} {u : Unit} :
    (summed sums).Gives desk u after ↔ (∀ sum ∈ sums, sum.units ≤ columnMax) ∧ desk = after := by
  unfold summed
  simp [Work.gives_ite]

theorem summed_failsWith {sums : List Amount} {s : Store} (hs : desk.Holds s)
    (large : ¬∀ sum ∈ sums, sum.units ≤ columnMax) :
    (summed sums).FailsWith desk (.store .overflowed) s := by
  unfold summed
  rw [if_neg large]
  exact Work.failsWith_storeFails hs

theorem heldBy_gives {who : Value} {name : String} (h : who.text? = some name)
    {except : Option Uuid} {held : Amount} :
    (heldBy who except).Gives desk held after ↔
      ∃ s, desk.Holds s ∧ (s.held name except).units ≤ columnMax ∧ s.held name except = held ∧
        desk = after := by
  unfold heldBy
  simp only [Work.gives_bind, Work.gives_check, lookupKey_of_text h, Except.ok.injEq]
  constructor
  · intro h
    obtain ⟨_, _, ⟨rfl, rfl⟩, h⟩ := h
    simp only [Work.gives_bind, Work.gives_read, summed_gives, List.forall_mem_singleton,
      Work.gives_pure] at h
    obtain ⟨_, _, ⟨s, hs, rfl, rfl⟩, _, _, ⟨hfits, rfl⟩, hheld, hafter⟩ := h
    exact ⟨s, hs, hfits, hheld, hafter⟩
  · intro h
    obtain ⟨s, hs, hfits, hheld, hafter⟩ := h
    refine ⟨some name, desk, ⟨rfl, rfl⟩, ?_⟩
    simp only [Work.gives_bind, Work.gives_read, summed_gives, List.forall_mem_singleton,
      Work.gives_pure]
    exact ⟨_, _, ⟨s, hs, rfl, rfl⟩, ⟨⟩, _, ⟨hfits, rfl⟩, hheld, hafter⟩

theorem viewOf_gives {who : Value} {except : Option Uuid} {view : Balance} :
    (viewOf who except).Gives desk view after ↔
      ∃ s name, desk.Holds s ∧ checkName who = .ok name ∧
        (s.held name except).units ≤ columnMax ∧ s.view name except = view ∧
        desk.keep (s.withAccount name) = after := by
  -- What the drops hold is read after the account is opened, which no drop notices.
  have hshown (s : Store) (name : String) :
      (⟨((s.account? name).getD (.opened name)).name,
        ((s.account? name).getD (.opened name)).balance,
        (s.withAccount name).held name except⟩ : Balance) = s.view name except := by
    rw [Store.held_congr name except (s.drops_withAccount name)]
    unfold Store.view Store.balance
    cases ha : s.account? name with
    | none => rfl
    | some a => rw [Option.getD_some, Store.name_of_account? s name ha]; rfl
  unfold viewOf
  simp only [Work.gives_bind, ensure_gives, Work.gives_pure]
  constructor
  · intro h
    obtain ⟨_, _, ⟨s, name, hs, hname, rfl, rfl⟩, held, _, hheld, hview, rfl⟩ := h
    obtain ⟨t, ht, hfits, rfl, rfl⟩ := (heldBy_gives (checkName_ok hname).1).mp hheld
    rw [ht.unique (hs.keep _)] at hfits hview
    rw [Store.held_congr name except (s.drops_withAccount name)] at hfits
    rw [hshown] at hview
    exact ⟨s, name, hs, hname, hfits, hview, rfl⟩
  · intro h
    obtain ⟨s, name, hs, hname, hfits, hview, rfl⟩ := h
    rw [← Store.held_congr name except (s.drops_withAccount name)] at hfits
    refine ⟨_, _, ⟨s, name, hs, hname, rfl, rfl⟩, _, _,
      (heldBy_gives (checkName_ok hname).1).mpr ⟨_, hs.keep _, hfits, rfl, rfl⟩, ?_, rfl⟩
    rw [hshown]
    exact hview

/-- Opening an account a second time does nothing. -/
theorem withAccount_withAccount (s : Store) (name : String) :
    (s.withAccount name).withAccount name = s.withAccount name := by
  obtain ⟨a, ha⟩ := Option.isSome_iff_exists.mp (isSome_withAccount s name)
  rw [Store.withAccount.eq_def (s.withAccount name), ha]

/-- Opening an account changes no view of it. -/
theorem Store.view_withAccount (s : Store) (name : String) :
    (s.withAccount name).view name none = s.view name none := by
  unfold Store.view
  rw [Store.balance_withAccount, Store.held_congr name none (s.drops_withAccount name)]

theorem checkAvailable_gives {who : Value} {amount available : Amount} :
    (checkAvailable who amount).Gives desk available after ↔
      ∃ s name, desk.Holds s ∧ checkName who = .ok name ∧ (s.held name none).units ≤ columnMax ∧
        ¬(s.view name none).available < amount ∧ (s.view name none).available = available ∧
        desk.keep (s.withAccount name) = after := by
  unfold checkAvailable
  simp only [Work.gives_bind, lockOne_gives, viewOf_gives, Work.gives_guard, Work.gives_pure]
  constructor
  · intro h
    obtain ⟨_, _, ⟨s, name, hs, hname, rfl⟩, _, _, ⟨t, other, ht, hother, hfits, rfl, rfl⟩, henough,
      rfl, rfl⟩ := h
    obtain rfl := Except.ok.inj (hname.symm.trans hother)
    obtain rfl := (hs.keep _).unique ht
    rw [Store.held_congr name none (s.drops_withAccount name)] at hfits
    rw [Store.view_withAccount] at henough ⊢
    rw [withAccount_withAccount]
    exact ⟨s, name, hs, hname, hfits, henough, rfl, rfl⟩
  · intro h
    obtain ⟨s, name, hs, hname, hfits, henough, rfl, rfl⟩ := h
    rw [← Store.held_congr name none (s.drops_withAccount name)] at hfits
    refine ⟨⟨⟩, _, ⟨s, name, hs, hname, rfl⟩, _, _, ⟨_, name, hs.keep _, hname, hfits,
      s.view_withAccount name, ?_⟩, henough, rfl, rfl⟩
    rw [withAccount_withAccount, Desk.keep_keep]

/-! ### Deposits and debits -/

/-- The desk once a deposit is done. -/
def Desk.afterDeposit (desk : Desk) (name : String) (amount : Amount) (s : Store) : Desk :=
  (desk.keep s).note .info "services.balance_store" "deposit_applied"
    [("account_id", .text name), ("amount", .nat amount.units),
     ("balance", .nat (s.balance name).units)] none

theorem deposit_gives {who : Value} {amount balance : Amount} :
    (deposit who amount).Gives desk balance after ↔
      ∃ s name, desk.Holds s ∧ checkName who = .ok name ∧ amount.units ≠ 0 ∧
        amount.units ≤ columnMax ∧
        ((s.withAccount name).credit name amount).balance name = balance ∧
        desk.afterDeposit name amount ((s.withAccount name).credit name amount) = after := by
  unfold deposit
  simp only [Work.gives_guard, Work.gives_bind, lockOne_gives, Work.gives_column, Work.gives_write,
    Work.gives_read, Work.gives_note, Work.gives_pure]
  constructor
  · intro h
    obtain ⟨hsome, _, _, ⟨s, name, hs, hname, rfl⟩, _, _, ⟨-, hfits, rfl⟩, _, _, ⟨t, ht, rfl⟩,
      balance, _, ⟨u, hu, rfl, rfl⟩, _, _, rfl, rfl, rfl⟩ := h
    obtain rfl := (hs.keep _).unique ht
    obtain rfl := (ht.keep _).unique hu
    rw [(checkName_ok hname).1, Option.getD_some]
    exact ⟨s, name, hs, hname, hsome, hfits.2, rfl, rfl⟩
  · intro h
    obtain ⟨s, name, hs, hname, hsome, hfits, rfl, rfl⟩ := h
    have htext : who.text?.getD "" = name := by rw [(checkName_ok hname).1, Option.getD_some]
    refine ⟨hsome, ⟨⟩, _, ⟨s, name, hs, hname, rfl⟩, ⟨⟩, _,
      ⟨⟨_, hs.keep _⟩, natCast_fits.mpr hfits, rfl⟩, ⟨⟩, _, ⟨_, hs.keep _, rfl⟩, _, _,
      ⟨_, hs.keep _, rfl, rfl⟩, ⟨⟩, _, rfl, ?_, ?_⟩
    · rw [htext]
    · rw [htext]; rfl

/-- One more credit to the sums gathered so far. -/
def gatherStep (sums : List (String × Amount)) (c : String × Amount) : List (String × Amount) :=
  if sums.any (·.1 == c.1) then sums.map fun (n, a) => if n == c.1 then (n, a + c.2) else (n, a)
  else sums ++ [(c.1, c.2)]

theorem gather_eq (credits : List (String × Amount)) :
    gather credits = credits.foldl gatherStep [] :=
  rfl

/-- A sum is kept for a name exactly if there was one, or the credit is its own. -/
theorem mem_gatherStep {sums : List (String × Amount)} {c : String × Amount} {name : String} :
    name ∈ (gatherStep sums c).map (·.1) ↔ name ∈ sums.map (·.1) ∨ name = c.1 := by
  unfold gatherStep
  split
  · next hany =>
    obtain ⟨d, hd, hname⟩ := List.any_eq_true.mp hany
    have hsame : (sums.map fun (n, a) => if n == c.1 then (n, a + c.2) else (n, a)).map (·.1) =
        sums.map (·.1) := by
      rw [List.map_map]
      apply List.map_congr_left
      intro e _
      by_cases h : e.1 = c.1 <;> simp [h]
    rw [hsame]
    refine ⟨Or.inl, fun h => ?_⟩
    rcases h with h | rfl
    · exact h
    · exact List.mem_map.mpr ⟨d, hd, by simpa using hname⟩
  · simp

/-- Nobody's credit is lost, and nobody gets one who was given none. -/
theorem mem_gather {credits : List (String × Amount)} {name : String} :
    name ∈ (gather credits).map (·.1) ↔ name ∈ credits.map (·.1) := by
  have hfold (sums : List (String × Amount)) :
      name ∈ (credits.foldl gatherStep sums).map (·.1) ↔
        name ∈ sums.map (·.1) ∨ name ∈ credits.map (·.1) := by
    induction credits generalizing sums with
    | nil => simp
    | cons c rest ih =>
      rw [List.foldl_cons, ih, mem_gatherStep, List.map_cons, List.mem_cons, or_assoc]
  rw [gather_eq, hfold]
  simp

/-- Adding credits up takes no account from a debit and brings none in. -/
theorem mem_parties_gather {credits : List (String × Amount)} {source name : String} :
    name ∈ source :: (gather credits).map (·.1) ↔ name ∈ source :: credits.map (·.1) := by
  rw [List.mem_cons, List.mem_cons, mem_gather]

/-- Credits to different destinations are already added up. -/
theorem gather_of_nodup {credits : List (String × Amount)} (h : (credits.map (·.1)).Nodup) :
    gather credits = credits := by
  have hfold (sums rest : List (String × Amount)) (hnodup : ((sums ++ rest).map (·.1)).Nodup) :
      rest.foldl gatherStep sums = sums ++ rest := by
    induction rest generalizing sums with
    | nil => simp
    | cons c rest ih =>
      have hnew : sums.any (·.1 == c.1) = false := by
        rw [List.any_eq_false]
        intro d hd hname
        rw [List.map_append, List.nodup_append] at hnodup
        exact hnodup.2.2 d.1 (List.mem_map.mpr ⟨d, hd, rfl⟩) c.1 (by simp) (by simpa using hname)
      have hstep : gatherStep sums c = sums ++ [c] := by
        unfold gatherStep
        rw [hnew, if_neg Bool.false_ne_true]
      rw [List.foldl_cons, hstep, ih _ (by simpa using hnodup)]
      simp
  exact hfold [] credits h

/-- The tables once a sum is taken from one account and its parts are added to others, all of which
are opened first. -/
def Store.debitedAndCredited (s : Store) (source : String) (credits : List (String × Amount)) :
    Store :=
  ((s.opened (lockOrder (source :: credits.map (·.1)))).debit source
    (.sum (credits.map (·.2)))).creditAll credits

theorem debitAndCredit_gives {source : String} {credits : List (String × Amount)}
    {except : Option Uuid} {total : Amount} :
    (debitAndCredit source credits except).Gives desk total after ↔
      ∃ s, desk.Holds s ∧ credits ≠ [] ∧ (∀ name ∈ source :: credits.map (·.1), IsName name) ∧
        Amount.sum ((gather credits).map (·.2)) = total ∧ total.units ≤ columnMax ∧
        (s.held source except).units ≤ columnMax ∧ s.Covers source except total ∧
        desk.keep (s.debitedAndCredited source (gather credits)) = after := by
  unfold debitAndCredit
  -- Both branches that refuse give nothing.
  simp only [Work.gives_ite, Work.gives_bind, Work.gives_refuse, false_and, and_false, exists_false,
    false_or, or_false, Work.gives_column, Work.gives_tables, Work.gives_write, Work.gives_pure,
    List.isEmpty_iff, summed_gives, List.forall_mem_singleton]
  constructor
  · intro h
    obtain ⟨hsome, _, _, hchecked, accounts, _, hlocked, _, _, ⟨⟨t, ht⟩, hfits, rfl⟩, _, _,
      ⟨hseen, rfl⟩, _, _, ⟨hsummed, rfl⟩, hcover, _, _, ⟨_, hdebited, rfl⟩, _, _, hcredited, rfl,
      rfl⟩ := h
    obtain ⟨-, rfl⟩ := Work.gives_forIn_check.mp hchecked
    obtain ⟨s, hs, hvalid, -, rfl⟩ := lock_gives.mp hlocked
    rw [hseen.unique (hs.keep _)] at hsummed hcover
    rw [Store.held_opened] at hsummed
    rw [hdebited.unique (hs.keep _)] at hcredited
    obtain rfl := (Work.gives_forIn_write ((hs.keep _).keep _)).mp hcredited
    exact ⟨s, hs, hsome, fun name hname => hvalid name (mem_parties_gather.mpr hname), rfl,
      hfits.2, hsummed, (s.covers_opened source except _ _).mp hcover, rfl⟩
  · intro h
    obtain ⟨s, hs, hsome, hnames, rfl, hfits, hsummed, hcover, rfl⟩ := h
    have hvalid : ∀ name ∈ source :: (gather credits).map (·.1), IsName name :=
      fun name hname => hnames name (mem_parties_gather.mp hname)
    refine ⟨hsome, ⟨⟩, desk, Work.gives_forIn_check.mpr ⟨fun c hc => ?_, rfl⟩, _, _,
      lock_gives.mpr ⟨s, hs, hvalid, rfl, rfl⟩, ⟨⟩, _,
      ⟨⟨_, hs.keep _⟩, natCast_fits.mpr hfits, rfl⟩, _, _, ⟨hs.keep _, rfl⟩, ⟨⟩, _,
      ⟨(s.held_opened source except _).symm ▸ hsummed, rfl⟩,
      (s.covers_opened source except _ _).mpr hcover, ⟨⟩, _,
      ⟨_, hs.keep _, rfl⟩, ⟨⟩, _,
      (Work.gives_forIn_write ((hs.keep _).keep _)).mpr rfl, rfl, rfl⟩
    exact ⟨c.1, checked_refused.mpr
      (hnames c.1 (List.mem_cons_of_mem _ (List.mem_map_of_mem hc)))⟩

/-! ### Settings -/

theorem changeSettings_gives {who : Value} {change : Account → Account} {account : Account} :
    (changeSettings who change).Gives desk account after ↔
      ∃ s name, desk.Holds s ∧ checkName who = .ok name ∧
        change ((s.account? name).getD (.opened name)) = account ∧
        desk.keep ((s.withAccount name).updateAccount name change) = after := by
  have hnamed (s : Store) (name : String) :
      ((s.account? name).getD (.opened name)).name = name := by
    cases ha : s.account? name with
    | none => rfl
    | some a => exact Store.name_of_account? s name ha
  unfold changeSettings
  simp only [Work.gives_bind, ensure_gives, Work.gives_write, Work.gives_pure]
  constructor
  · intro h
    obtain ⟨_, _, ⟨s, name, hs, hname, rfl, rfl⟩, _, _, ⟨t, ht, rfl⟩, haccount, rfl⟩ := h
    rw [ht.unique (hs.keep _), hnamed]
    exact ⟨s, name, hs, hname, haccount, rfl⟩
  · intro h
    obtain ⟨s, name, hs, hname, haccount, rfl⟩ := h
    refine ⟨_, _, ⟨s, name, hs, hname, rfl, rfl⟩, ⟨⟩, _, ⟨_, hs.keep _, rfl⟩, haccount, ?_⟩
    rw [hnamed, Desk.keep_keep]

/-- A new preference changes nothing else. -/
theorem setPreference_changes {who preference : Value} {info : AccountInfo}
    (h : (setPreference who preference).Gives desk info after) :
    ∃ s name, ∃ chosen : Option Preference, desk.Holds s ∧ checkName who = .ok name ∧
      after.Holds
        ((s.withAccount name).updateAccount name ({ · with preference := chosen.map .known })) := by
  unfold setPreference at h
  simp only [Work.gives_bind, Work.gives_check, changeSettings_gives, Work.gives_note] at h
  obtain ⟨_, _, ⟨-, rfl⟩, _, _, ⟨s, name, hs, hname, -, rfl⟩, _, _, rfl, -, rfl⟩ := h
  exact ⟨s, name, _, hs, hname, (hs.keep _).note ..⟩

/-- Whether an account may start transfers changes nothing else. -/
theorem setBlacklisted_changes {who : Value} {blacklisted : Bool} {info : AccountInfo}
    (h : (setBlacklisted who blacklisted).Gives desk info after) :
    ∃ s name, desk.Holds s ∧ checkName who = .ok name ∧
      after.Holds ((s.withAccount name).updateAccount name ({ · with blacklisted })) := by
  unfold setBlacklisted at h
  simp only [Work.gives_bind, changeSettings_gives, Work.gives_note, Work.gives_check] at h
  obtain ⟨_, _, ⟨s, name, hs, hname, -, rfl⟩, _, _, rfl, -, rfl⟩ := h
  exact ⟨s, name, hs, hname, (hs.keep _).note ..⟩

end TipJar.Ledger
