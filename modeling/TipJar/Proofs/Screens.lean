import TipJar.Proofs.Screening

/-! Programs that make checks.

A command makes its checks in several units of work, with calls to the platform in
between. Left alone, it ends with the first check that is not passed, and nobody has
been told anything by then. The checks of a program are read off it construct by
construct, and then the commands are put together from what they begin with and what is
particular to them: both kinds of tip end with the checks of their transfer, of which
the ones that have been made before need not be made again. -/
namespace TipJar
open Ledger

/-! ### Programs that make checks -/

/-- Whether nobody is told anything in some acts. -/
def Act.Silent (acts : List Act) : Prop := ∀ c, .called c ∈ acts → ¬c.IsMessage

namespace Act
variable {acts more : List Act}

theorem silent_nil : Silent [] := fun _ h => absurd h List.not_mem_nil

theorem silent_kept (k : Kept) : Silent [.kept k] := fun _ h => by
  cases List.mem_singleton.mp h

theorem silent_called {c : Call} (asks : ¬c.IsMessage) : Silent [.called c] := fun _ h => by
  obtain rfl := called.inj (List.mem_singleton.mp h)
  exact asks

theorem Silent.append (h : Silent acts) (hmore : Silent more) : Silent (acts ++ more) :=
  fun c hc => (List.mem_append.mp hc).elim (h c) (hmore c)

end Act

/-- How a program goes that makes some checks. It ends with the first fault there is, and nobody has
been told anything; or there is none, and it goes on. -/
inductive Screened {α : Type} (checks : List (Option Fault))
    (Then : List Act → Checked α → State → Prop) : List Act → Checked α → State → Prop
  | stopped {acts : List Act} {why : Fault} {τ : State} (fault : Fault.first checks = some why)
      (silent : Act.Silent acts) : Screened checks Then acts (.error why) τ
  | passed {before after : List Act} {r : Checked α} {τ : State}
      (passed : Fault.first checks = none) (silent : Act.Silent before) (goesOn : Then after r τ) :
      Screened checks Then (before ++ after) r τ

section Screened
variable {α : Type} {checks earlier : List (Option Fault)}
  {Then : List Act → Checked α → State → Prop} {before acts : List Act} {r : Checked α} {τ : State}

/-- Checks that are passed may come first. -/
theorem Screened.after (h : Screened checks Then acts r τ) (passed : Fault.first earlier = none)
    (silent : Act.Silent before) : Screened (earlier ++ checks) Then (before ++ acts) r τ := by
  cases h with
  | stopped fault quiet =>
    exact .stopped ((Fault.first_append_of_none passed).trans fault) (silent.append quiet)
  | passed none quiet goesOn =>
    rw [← List.append_assoc]
    exact .passed ((Fault.first_append_of_none passed).trans none) (silent.append quiet) goesOn

/-- What is reported, when the rest of the program makes checks as well. -/
theorem Screened.reports {more : List (Option Fault)} (h : Screened checks Then acts r τ)
    (last : ∀ ⦃after⦄, Then after r τ → r.fault? = Fault.first more) :
    r.fault? = Fault.first (checks ++ more) := by
  cases h with
  | stopped fault => exact (Fault.first_append_of_some fault).symm
  | passed none _ goesOn => exact (last goesOn).trans (Fault.first_append_of_none none).symm

theorem screened_nil (goesOn : Then acts r τ) : Screened [] Then acts r τ := by
  rw [← List.nil_append acts]
  exact .passed rfl Act.silent_nil goesOn

end Screened

namespace Program
variable {α β : Type} {W : World} {σ : State} {checks : List (Option Fault)}
  {Then : List Act → Checked α → State → Prop}

/-- Whether a program that is left alone makes some checks in order. -/
def Screens (p : Program α) (W : World) (σ : State) (checks : List (Option Fault))
    (Then : List Act → Checked α → State → Prop) : Prop :=
  ∀ ⦃acts : List Act⦄ ⦃r : Checked α⦄ ⦃τ : State⦄, p.Goes W Eq σ acts r τ →
    Screened checks Then acts r τ

theorem screens_nil {p : Program α}
    (h : ∀ ⦃acts : List Act⦄ ⦃r : Checked α⦄ ⦃τ : State⦄, p.Goes W Eq σ acts r τ → Then acts r τ) :
    p.Screens W σ [] Then := fun _ _ _ goes => screened_nil (h goes)

/-- A check of the program itself. -/
theorem screens_check {x : Checked β} {f : β → Program α}
    (h : ∀ b, x = .ok b → (f b).Screens W σ checks Then) :
    (check x >>= f).Screens W σ (x.fault? :: checks) Then := by
  intro acts r τ goes
  cases x with
  | ok b =>
    have hpassed : Fault.first [Checked.fault? (.ok b : Checked β)] = none := rfl
    exact (h b rfl goes).after hpassed Act.silent_nil
  | error why =>
    obtain ⟨rfl, rfl, rfl⟩ := goes
    exact .stopped rfl Act.silent_nil

/-- The clock is read, and what comes after it is told the time. -/
theorem goes_now {f : Moment → Program α} {acts : List Act} {r : Checked α} {τ : State}
    (goes : (now >>= f).Goes W Eq σ acts r τ) :
    ∃ m, W _ (.chore .now) m ∧ (f m).Goes W Eq σ acts r τ := by
  obtain ⟨_, m, rfl, hworld, hrest⟩ := (goes_asked rfl).mp goes
  exact ⟨m, hworld, hrest⟩

/-- A question to the platform, which it answers. -/
theorem screens_call {c : Call} {limit : Option Binary64} {reply : c.Reply}
    {f : c.Reply → Program α} (asks : ¬c.IsMessage)
    (answered : ∀ b, W _ (.call c limit) b → b = .ok reply)
    (h : (f reply).Screens W σ checks Then) :
    (call c limit >>= f).Screens W σ checks Then := by
  intro acts r τ goes
  obtain ⟨_, b, rest, rfl, hworld, hrest, rfl⟩ := goes_called.mp goes
  obtain rfl := answered b hworld
  have hpassed : Fault.first [] = none := rfl
  exact (h hrest).after hpassed (Act.silent_called asks)

/-- A unit of work that makes checks. -/
theorem screens_work {operation : String} {work : Work β} {f : β → Program α}
    {first : List (Option Fault)} (saves : ¬W.Loses operation)
    (reports : work.Reports σ.store first)
    (h : ∀ b μ, σ.Keeps work b μ → (f b).Screens W μ checks Then) :
    (transact operation work >>= f).Screens W σ (first ++ checks) Then := by
  intro acts r τ goes
  rcases goes.neededAlone saves reports.fails with
    ⟨why, rfl, ⟨hfault | ⟨-, cause, rfl⟩, kind⟩, rfl, rfl⟩ | ⟨b, μ, rest, hkept, hrest, rfl⟩
  · exact .stopped (Fault.first_append_of_some hfault) Act.silent_nil
  · exact absurd rfl (kind cause)
  · obtain ⟨_, desk, after, -, hgives, -⟩ := id hkept
    exact (h b μ hkept hrest).after (reports.gives (σ.holds_begun desk) hgives) (Act.silent_kept _)

end Program

namespace Tipping
variable {t : Tipping} {W : World} {σ τ : State} {acts : List Act} {author channel : String}

theorem screens_asRequest {α : Type} {command : Program α} {checks : List (Option Fault)}
    {Then : List Act → Checked α → State → Prop} (h : command.Screens W σ checks Then) :
    (asRequest author command).Screens W σ checks Then := by
  intro acts r τ goes
  obtain ⟨_, _, rfl, -, hbound⟩ := (Program.goes_asked rfl).mp goes
  obtain ⟨_, _, rfl, hgoes, rfl⟩ := hbound.within
  exact h hgoes

/-! ### The checks of commands -/

/-- The checks that every command makes first. -/
def entryChecks (s : Store) (author : String) (amount minimum : Amount) : List (Option Fault) :=
  [s.listFault author, Fault.refusedIf (amount < minimum) (.belowMinimum amount minimum)]

/-- The checks of a tip. -/
def tipChecks (t : Tipping) (s : Store) (author recipient : String) (amount : Amount) :
    List (Option Fault) :=
  entryChecks s author amount t.minimumTip ++
    [Fault.refusedIf (recipient = author) (.invalidSplit .sourceAmongDestinations),
      nameFault recipient, nameFault author, s.fundsFault author amount]

/-- The checks of a tip to a role. What is moved is a share for each member but the author. -/
def roleChecks (t : Tipping) (s : Store) (author : String) (members : List String)
    (amount : Amount) : List (Option Fault) :=
  let others := Drop.eligible members author
  entryChecks s author amount t.minimumRoleTip ++
    (Fault.refusedIf (others = []) (.invalidSplit .noDestinations) ::
      ((others ++ [author]).map nameFault ++
        [s.fundsFault author (Transfer.Split.of amount others.length).moved]))

section Entry
variable {α : Type} {command : Program α} {checks : List (Option Fault)}
  {Then : List Act → Checked α → State → Prop} {amount minimum : Amount}

/-- What comes after the first checks of a command finds the tables unchanged. -/
theorem screens_entry (saves : ∀ operation, ¬W.Loses operation)
    (h : ∀ μ, State.Run σ μ → μ.store = σ.store → minimum ≤ amount →
      command.Screens W μ checks Then) :
    (asRequest author do
      requireAllowed author
      requireMinimum amount minimum
      command).Screens W σ (entryChecks σ.store author amount minimum ++ checks) Then := by
  refine screens_asRequest ?_
  show Program.Screens _ W σ ([σ.store.listFault author] ++
    Fault.refusedIf (amount < minimum) (.belowMinimum amount minimum) :: checks) Then
  refine Program.screens_work (saves _) requireAllowed_reports fun _ μ hkept => ?_
  have hsame : μ.store = σ.store := hkept.asks (reads_requireAllowed _)
  unfold requireMinimum
  by_cases little : amount < minimum
  · rw [if_pos little, Fault.refusedIf_pos little]
    exact Program.screens_check (x := .error _) nofun
  · rw [if_neg little, Fault.refusedIf_neg little]
    exact Program.screens_check (x := .ok ()) fun _ _ => h μ hkept.run hsame (Nat.not_lt.mp little)

end Entry

/-! ### Tips -/

section Tips
variable {amount minimum : Amount}

/-- A tip that passes the checks of its transfer goes on to its end. -/
theorem screens_settle (h : σ.Reached) (honest : t.execute = Ledger.execute)
    (saves : ∀ operation, ¬W.Loses operation) (mentions : W.Mentions) {i : Transfer.Intent}
    (covered : σ.store.Covered) (counts : σ.store.Counts i.source none)
    (fits : i.amount.units ≤ columnMax) :
    (t.settle i channel minimum).Screens W σ (σ.store.transferChecks i minimum)
      fun _ r _ => r.fault? = none := by
  unfold settle
  rw [honest, ← List.append_nil (σ.store.transferChecks i minimum)]
  refine Program.screens_work (saves _) (execute_reports covered counts fits) fun receipt μ hkept =>
    Program.screens_nil fun acts r τ goes => ?_
  obtain ⟨-, hfits⟩ := pays_of_keeps h hkept "" ⟨receipt.event, 0, 0, []⟩
  obtain ⟨-, hheard⟩ := tells_tip hfits (h.run hkept.run) goes.plays_alone
  cases r with
  | ok tip => rfl
  | error why => exact absurd mentions hheard

/-- One recipient: what is left to check of the transfer is that it is not the author. -/
theorem transferChecks_one (s : Store) (kind : Transfer.Kind) {recipient : String}
    (least : minimum ≤ amount) :
    s.transferChecks ⟨author, [recipient], amount, kind⟩ minimum =
      [Fault.refusedIf (recipient = author) (.invalidSplit .sourceAmongDestinations),
        nameFault recipient, nameFault author, s.fundsFault author amount] := by
  have hmoved : (Transfer.Split.of amount [recipient].length).moved = amount :=
    Amount.ext ((Nat.mul_one _).trans (Nat.div_one _))
  have hcheck : Checked.fault? (((⟨author, [recipient], amount, kind⟩ : Transfer.Intent).check
      minimum).mapError .refused) =
        Fault.refusedIf (recipient = author) (.invalidSplit .sourceAmongDestinations) := by
    unfold Transfer.Intent.check
    dsimp only
    rw [if_neg (List.cons_ne_nil _ _), if_neg (not_not.mpr (List.nodup_singleton _)),
      if_neg (show ¬amount < minimum from Nat.not_lt.mpr least)]
    by_cases same : recipient = author
    · rw [if_pos (List.mem_singleton.mpr same.symm), Fault.refusedIf_pos same]
      rfl
    · rw [if_neg fun among => same (List.mem_singleton.mp among).symm, Fault.refusedIf_neg same]
      rfl
  unfold Store.transferChecks
  rw [hcheck, show Transfer.Intent.split ⟨author, [recipient], amount, kind⟩ =
    Transfer.Split.of amount [recipient].length from rfl, hmoved]
  rfl

/-- The members of a role but the author: what is left to check of the transfer is that there are
any. -/
theorem transferChecks_eligible (s : Store) (kind : Transfer.Kind) {members : List String}
    (least : minimum ≤ amount) :
    s.transferChecks ⟨author, Drop.eligible members author, amount, kind⟩ minimum =
      Fault.refusedIf (Drop.eligible members author = []) (.invalidSplit .noDestinations) ::
        ((Drop.eligible members author ++ [author]).map nameFault ++ [s.fundsFault author
          (Transfer.Split.of amount (Drop.eligible members author).length).moved]) := by
  have hcheck : Checked.fault? (((⟨author, Drop.eligible members author, amount, kind⟩ :
      Transfer.Intent).check minimum).mapError .refused) =
        Fault.refusedIf (Drop.eligible members author = []) (.invalidSplit .noDestinations) := by
    unfold Transfer.Intent.check
    dsimp only
    rw [if_neg (not_not.mpr (Drop.nodup_eligible _ _)), if_neg (Drop.not_mem_eligible _ _),
      if_neg (show ¬amount < minimum from Nat.not_lt.mpr least)]
    by_cases nobody : Drop.eligible members author = []
    · rw [if_pos nobody, Fault.refusedIf_pos nobody]
      rfl
    · rw [if_neg nobody, Fault.refusedIf_neg nobody]
      rfl
  unfold Store.transferChecks
  rw [hcheck]
  rfl

theorem screens_tipAccount (h : σ.Contained) (honest : t.execute = Ledger.execute)
    (saves : ∀ operation, ¬W.Loses operation) (mentions : W.Mentions) {recipient : String}
    (fits : amount.units ≤ columnMax) :
    (t.tipAccount author channel recipient amount).Screens W σ
      (t.tipChecks σ.store author recipient amount) fun _ r _ => r.fault? = none := by
  refine screens_entry saves fun μ run same least => ?_
  rw [← same, ← transferChecks_one μ.store .direct least]
  exact screens_settle (h.reached.run run) honest saves mentions (same ▸ h.covered)
    (same ▸ h.counts author none) fits

theorem screens_tipRole (h : σ.Contained) (honest : t.execute = Ledger.execute)
    (saves : ∀ operation, ¬W.Loses operation) (mentions : W.Mentions) {role : String}
    {members : List String}
    (answered : ∀ b, W _ (.call (.members role) none) b → b = .ok members)
    (fits : amount.units ≤ columnMax) :
    (t.tipRole author channel role amount).Screens W σ
      (t.roleChecks σ.store author members amount) fun _ r _ => r.fault? = none := by
  refine screens_entry saves fun μ run same least => Program.screens_call id answered ?_
  rw [← same, ← transferChecks_eligible μ.store .role least]
  exact screens_settle (h.reached.run run) honest saves mentions (same ▸ h.covered)
    (same ▸ h.counts author none) fits

end Tips

end Tipping
end TipJar
