import TipJar.Proofs.Announcements
import TipJar.Proofs.Deliveries
import TipJar.Proofs.Minimums
import TipJar.Proofs.Screens

/-! What a command reports when several checks fail.

Left alone, a command reports the first check that fails, whatever else would have
failed after it. An author who may not act is turned away before the platform is asked
or a balance is looked at. A drop is announced once all checks but the last two are
passed, and what the announcement says of the amount and of the time is what the row
that is kept then says. -/
namespace TipJar
open Ledger

/-- A world in which nothing is answered but some effects. -/
def World.only (W : World) (allowed : {β : Type} → Effect β → Prop) : World :=
  fun β e b => allowed e ∧ W β e b

/-- The effects that it takes to admit an author. None of them reads a balance or asks the
platform. -/
inductive Effect.IsAdmission (author : String) : {β : Type} → Effect β → Prop
  | named : IsAdmission author (.chore .freshId)
  | bound (changes : List (Log.Field × String)) : IsAdmission author (.chore (.bind changes))
  | asked : IsAdmission author
      (.chore (.transact "check_blacklist" (Ledger.requireAllowed (.text author))))
  | restored (old : Log.Context) (changed : List Log.Field) :
      IsAdmission author (.chore (.restore old changed))

namespace Tipping
variable {t : Tipping} {W : World} {σ τ : State} {acts : List Act} {author channel : String}

/-! ### Drops -/

/-- What a drop is started from. -/
structure Order where
  author : String
  channel : String
  token : String
  amount : Amount
  duration : Value
  unit : Value

/-- Starts the drop of an order. -/
abbrev start (t : Tipping) (o : Order) : Program DropStarted :=
  t.startDrop o.author o.channel o.token o.amount o.duration o.unit

/-- The checks of a drop that are made once the clock is read and before it is announced. -/
def timedChecks (t : Tipping) (s : Store) (usable : Bool) (o : Order) (openedAt : Moment) :
    List (Option Fault) :=
  [Checked.fault? (Drop.deadlineFor openedAt o.duration o.unit (.int t.maxHours)),
    Fault.refusedIf (usable = false) (.invalidToken o.token),
    nameFault o.author, s.fundsFault o.author o.amount]

/-- The checks of a drop that are made before it is announced. -/
def dropChecks (t : Tipping) (s : Store) (usable : Bool) (o : Order) (openedAt : Moment) :
    List (Option Fault) :=
  entryChecks s o.author o.amount t.minimumDrop ++ t.timedChecks s usable o openedAt

/-- The announcement of a drop, once its deadline is granted. -/
def announcementFor (t : Tipping) (o : Order) (openedAt : Moment) : Checked String := do
  let deadline ← Drop.deadlineFor openedAt o.duration o.unit (.int t.maxHours)
  let written ← Checked.ofArithmetic (o.amount.format t.notifier.ticker)
  return Drop.announcement written o.token (deadline.since openedAt)

/-- The check that a public message is delivered. -/
def postFault (answer : (c : Call) → Except CallFault c.Reply) (channel text : String) :
    Option Fault :=
  match answer (.post channel text) with
  | .ok _ => none
  | .error why =>
    some (.refused (.undelivered channel Notifier.publicChannel (Notifier.reasonOf why)))

/-- The checks that are left when a drop is announced. A drop of nothing is found out last. -/
def lastChecks (t : Tipping) (answer : (c : Call) → Except CallFault c.Reply) (o : Order)
    (openedAt : Moment) : List (Option Fault) :=
  [(t.announcementFor o openedAt).toOption.bind (postFault answer o.channel),
    Fault.refusedIf (o.amount.units = 0) (.malformed .emptyDrop)]

/-- What a drop that is started has come to: the row that is kept, its hold and what was posted. -/
structure Opens (t : Tipping) (o : Order) (openedAt : Moment) (σ τ : State) (acts : List Act)
    (started : DropStarted) (row : Drop) (n : Nat) (u : DurationUnit) (shown : String) : Prop where
  granted : Drop.Grants openedAt o.duration o.unit started.drop.deadline n u
  stored : τ.store.drop? started.drop.id = some row
  pending : row.has .pending = true
  initiator : row.initiator = o.author
  amount : row.amount = o.amount
  opened : row.openedAt.instant = openedAt.instant
  deadline : row.deadline.instant = row.openedAt.instant + (n * u.micros : Nat)
  held : (τ.store.held o.author none).units = (σ.store.held o.author none).units + o.amount.units
  written : o.amount.format t.notifier.ticker = .ok shown
  announced : ∃ hours minutes, 60 * hours + minutes = n * u.inMinutes ∧ minutes < 60 ∧
    started.announcement = Drop.opening shown o.token hours minutes
  posted : .called (.post o.channel started.announcement) ∈ acts

/-- How a drop goes on once it is announced: it fails one of the last checks, or it is started. -/
structure Proceeds (t : Tipping) (answer : (c : Call) → Except CallFault c.Reply) (o : Order)
    (openedAt : Moment) (σ : State) (acts : List Act) (r : Checked DropStarted) (τ : State) :
    Prop where
  reports : r.fault? = Fault.first (t.lastChecks answer o openedAt)
  opens : ∀ started, r = .ok started →
    ∃ row n u shown, t.Opens o openedAt σ τ acts started row n u shown

section Drops
variable {answer : (c : Call) → Except CallFault c.Reply} {markup : String → String} {o : Order}
  {openedAt deadline : Moment}

/-- The announcement goes through or is the end of the drop. -/
theorem announce_alone {text : String} {r : Checked String} (answers : W.Answers answer markup)
    (goes : (t.announce channel text).Goes W Eq σ acts r τ) :
    acts = [.called (.post channel text)] ∧ τ.store = σ.store ∧
      ((∃ why, postFault answer channel text = some why ∧ r = .error why) ∨
        postFault answer channel text = none ∧ ∃ message, r = .ok message) := by
  obtain ⟨posted, hpost, hfailure⟩ : ∃ posted : Except Undelivered String,
      (t.notifier.post channel text).Speaks W Eq [.post channel text] posted ∧
        Notifier.failureOf posted =
          Notice.failure answer ⟨channel, Notifier.publicChannel, .post channel text⟩ :=
    Notifier.speaks_send (c := .post channel text) (a := ⟨answer, markup, fun _ => none⟩) answers
  rcases Program.goes_bind.mp goes with
    ⟨why, hfailed, -⟩ | ⟨sent, μ, first, second, hdone, hrest, rfl⟩
  · obtain ⟨-, hnever⟩ := hpost hfailed
    cases hnever
  obtain ⟨rfl, heq⟩ := hpost hdone
  obtain rfl := Except.ok.inj heq
  have hsame := hpost.unchanged hdone
  unfold Notice.failure at hfailure
  unfold postFault
  dsimp only at hfailure
  cases hanswer : answer (.post channel text) with
  | ok message =>
    rw [hanswer] at hfailure
    cases sent with
    | error failure => cases hfailure
    | ok message =>
      obtain ⟨rfl, rfl, rfl⟩ := hrest
      exact ⟨rfl, hsame, .inr ⟨rfl, message, rfl⟩⟩
  | error why =>
    rw [hanswer] at hfailure
    cases sent with
    | ok message => cases hfailure
    | error failure =>
      obtain rfl := Option.some.inj hfailure
      obtain ⟨rfl, rfl, rfl⟩ := hrest
      exact ⟨rfl, hsame, .inl ⟨_, rfl, rfl⟩⟩

theorem speaks_seed {message token : String} {others : State → State → Prop}
    (answers : W.Answers answer markup) :
    (seed channel message token).Speaks W others [.react channel message token] ⟨⟩ := by
  unfold seed
  rw [← List.append_nil [Call.react channel message token]]
  refine (Program.speaks_tryCall answers).bind ?_
  cases answer (.react channel message token) with
  | ok => exact Program.speaks_pure _
  | error => exact Program.speaks_note

/-- The row of a drop is kept, or a check of it fails. -/
theorem keep_alone {r : DropRequest} {checks : List (Option Fault)} {result : Checked Drop}
    (saves : ∀ operation, ¬W.Loses operation) (reports : (createDrop r).Reports σ.store checks)
    (goes : (keep r).Goes W Eq σ acts result τ) :
    (∃ why, Fault.first checks = some why ∧ result = .error why) ∨
      Fault.first checks = none ∧ ∃ drop, result = .ok drop ∧ σ.Keeps (createDrop r) drop τ := by
  rcases goes.triedAlone (saves _) reports.fails with
    ⟨drop, μ, rest, hkept, ⟨rfl, rfl, rfl⟩, rfl⟩ | ⟨why, ⟨hfault | ⟨-, cause, rfl⟩, kind⟩, hrest⟩
  · obtain ⟨_, desk, after, -, hgives, -⟩ := id hkept
    exact .inr ⟨reports.gives (σ.holds_begun desk) hgives, drop, rfl, hkept⟩
  · refine .inl ⟨why, hfault, ?_⟩
    dsimp only at hrest
    split at hrest
    · obtain ⟨_, _, -, -, -, rfl, -⟩ := (Program.goes_asked rfl).mp hrest
      rfl
    · obtain ⟨-, rfl, -⟩ := hrest
      rfl
  · exact absurd rfl (kind cause)

/-- The request that a drop is kept from. -/
abbrev Order.request (o : Order) (openedAt : Moment) (message : String) (deadline : Moment) :
    DropRequest :=
  { initiator := .text o.author, token := o.token, amount := o.amount, channel := o.channel,
    message, openedAt, deadline }

/-- The row that is kept of a drop, and its hold. -/
theorem row_of_keeps {message : String} {drop : Drop}
    (kept : σ.Keeps (createDrop (o.request openedAt message deadline)) drop τ) :
    drop.deadline = deadline ∧ ∃ row, τ.store.drop? drop.id = some row ∧ row.has .pending = true ∧
      row.initiator = o.author ∧ row.amount = o.amount ∧
      row.openedAt.instant = openedAt.instant ∧ row.deadline.instant = deadline.instant ∧
      (τ.store.held o.author none).units =
        (σ.store.held o.author none).units + o.amount.units := by
  obtain ⟨_, desk, after, -, hgives, hτ, -⟩ := kept
  obtain ⟨s, name, opened, due, hs, creates, rfl, rfl⟩ := createDrop_gives.mp hgives
  obtain rfl := (σ.holds_begun desk).unique hs
  obtain rfl := Option.some.inj (checkName_ok creates.named).1
  have hstore := hτ.unique (hs.afterCreate _ _ _)
  have hopened : opened.instant = openedAt.instant := Moment.instant_toUtc? creates.opened.2
  have hdue : due.instant = deadline.instant := Moment.instant_toUtc? creates.due.2
  have hdrops : (σ.store.withAccount o.author).drops = σ.store.drops :=
    σ.store.drops_withAccount o.author
  refine ⟨rfl, (o.request openedAt message deadline).row ((σ.begun desk).ids (σ.begun desk).nextId)
    o.author opened due, ?_, rfl, rfl, rfl, hopened, hdue, ?_⟩
  · rw [hstore]
    exact Store.drop?_withDrop ((Store.drop?_congr _ hdrops).trans creates.fresh)
  · rw [hstore, Store.withDrop, Store.held_append, Drop.heldOf_of_holding rfl,
      Store.held_congr o.author none hdrops]
    exact congrArg _ (if_pos rfl)

/-- A drop that has passed all checks but the last two is announced. -/
theorem proceeds_of_goes {μ : State} {shown : String}
    {r : Checked DropStarted} (saves : ∀ operation, ¬W.Loses operation)
    (answers : W.Answers answer markup) (fits : o.amount.units ≤ columnMax)
    (summed : (σ.store.held o.author none).units ≤ columnMax)
    (hdeadline : Drop.deadlineFor openedAt o.duration o.unit (.int t.maxHours) = .ok deadline)
    (hshown : o.amount.format t.notifier.ticker = .ok shown) (named : IsName o.author)
    (enough : ¬(μ.store.view o.author none).available < o.amount)
    (hheld : μ.store.held o.author none = σ.store.held o.author none)
    (goes : (do
      let message ← t.announce o.channel (Drop.announcement shown o.token (deadline.since openedAt))
      seed o.channel message o.token
      let drop ← keep (o.request openedAt message deadline)
      return (⟨drop, Drop.announcement shown o.token (deadline.since openedAt)⟩ :
        DropStarted)).Goes W Eq μ acts r τ) :
    t.Proceeds answer o openedAt σ acts r τ := by
  obtain ⟨n, u, granted⟩ := Drop.deadlineFor_ok hdeadline
  -- The deadline and the written amount are known by now, so the announcement is.
  have hlast : t.lastChecks answer o openedAt =
      [postFault answer o.channel (Drop.announcement shown o.token (deadline.since openedAt)),
        Fault.refusedIf (o.amount.units = 0) (.malformed .emptyDrop)] := by
    unfold lastChecks announcementFor
    rw [hdeadline, hshown]
    rfl
  rcases Program.goes_bind.mp goes with
    ⟨why, hfailed, rfl⟩ | ⟨message, μ₁, first, second, hposted, hrest, rfl⟩
  · obtain ⟨-, -, ⟨other, hfault, heq⟩ | ⟨-, _, hnever⟩⟩ := announce_alone answers hfailed
    · obtain rfl := Except.error.inj heq
      exact ⟨by rw [hlast, hfault, Fault.first_some]; rfl, fun _ hnever => nomatch hnever⟩
    · cases hnever
  obtain ⟨rfl, same₁, ⟨_, -, hnever⟩ | ⟨hpassed, -⟩⟩ := announce_alone answers hposted
  · cases hnever
  rw [hpassed] at hlast
  rcases Program.goes_bind.mp hrest with
    ⟨_, hfailed, -⟩ | ⟨_, μ₂, third, fourth, hseeded, hkeeping, rfl⟩
  · obtain ⟨-, hnever⟩ := speaks_seed answers hfailed
    cases hnever
  have same₂ : μ₂.store = μ.store := ((speaks_seed answers).unchanged hseeded).trans same₁
  have reports : (createDrop (o.request openedAt message deadline)).Reports μ₂.store
      [Fault.refusedIf (o.amount.units = 0) (.malformed .emptyDrop)] :=
    createDrop_reports rfl named (by rw [same₂, hheld]; exact summed) granted.noLater
      (same₂ ▸ enough) fits
  rcases Program.goes_bind.mp hkeeping with
    ⟨_, hfailed, rfl⟩ | ⟨drop, μ₃, fifth, sixth, hkept, ⟨rfl, rfl, rfl⟩, rfl⟩
  · rcases keep_alone saves reports hfailed with ⟨why, hfault, heq⟩ | ⟨-, _, hnever, -⟩
    · obtain rfl := Except.error.inj heq
      exact ⟨by rw [hlast, Fault.first_none, hfault]; rfl, fun _ hnever => nomatch hnever⟩
    · cases hnever
  rcases keep_alone saves reports hkept with ⟨_, -, hnever⟩ | ⟨hnone, _, heq, kept⟩
  · cases hnever
  obtain rfl := Except.ok.inj heq
  obtain ⟨hshows, row, hrow, hpending, hinitiator, hamount, hopened, hdue, hholds⟩ :=
    row_of_keeps kept
  rw [same₂, hheld] at hholds
  refine ⟨by rw [hlast, Fault.first_none, hnone]; rfl, fun started hstarted => ?_⟩
  obtain rfl := Except.ok.inj hstarted
  exact ⟨row, n, u, shown, {
    granted := hshows ▸ granted
    stored := hrow
    pending := hpending
    initiator := hinitiator
    amount := hamount
    opened := hopened
    deadline := by rw [hdue, hopened, granted.instant]
    held := hholds
    written := hshown
    announced := ⟨n * u.inMinutes / 60, n * u.inMinutes % 60, Nat.div_add_mod _ _,
      Nat.mod_lt _ (by decide), granted.announcement shown o.token⟩
    posted := List.mem_append_left _ (List.mem_singleton_self _) }⟩

/-- The last checks before a drop is announced are those of its author's name and funds. -/
theorem screens_funds {μ : State} (saves : ∀ operation, ¬W.Loses operation)
    (answers : W.Answers answer markup) (fits : o.amount.units ≤ columnMax)
    (summed : (σ.store.held o.author none).units ≤ columnMax)
    (hdeadline : Drop.deadlineFor openedAt o.duration o.unit (.int t.maxHours) = .ok deadline)
    (same : μ.store = σ.store) :
    (do
      let _ ← Program.transact "check_reactdrop_funds" (checkAvailable (.text o.author) o.amount)
      let written ← Program.check (Checked.ofArithmetic (o.amount.format t.notifier.ticker))
      let text := Drop.announcement written o.token (deadline.since openedAt)
      let message ← t.announce o.channel text
      seed o.channel message o.token
      let drop ← keep (o.request openedAt message deadline)
      return (⟨drop, text⟩ : DropStarted)).Screens W μ
        [nameFault o.author, σ.store.fundsFault o.author o.amount]
          (t.Proceeds answer o openedAt σ) := by
  rw [← same, ← List.append_nil [nameFault o.author, _]]
  refine Program.screens_work (saves _) (checkAvailable_reports (same ▸ summed)) ?_
  intro available ν hkept
  refine Program.screens_nil fun acts r τ goes => ?_
  obtain ⟨_, desk, after, -, hgives, hν, -⟩ := hkept
  obtain ⟨s, name, hs, named, -, enough, -, rfl⟩ := checkAvailable_gives.mp hgives
  obtain rfl := (μ.holds_begun desk).unique hs
  obtain rfl := Option.some.inj (checkName_ok named).1
  have hstore : ν.store = μ.store.withAccount o.author := hν.unique (hs.keep _)
  obtain ⟨shown, hshown⟩ := Amount.format_ok fits t.notifier.ticker
  rw [hshown] at goes
  refine proceeds_of_goes saves answers fits summed hdeadline hshown named ?_ ?_ goes
  · rw [hstore, Store.view_withAccount]
    exact enough
  · rw [hstore, ← same]
    exact Store.held_congr o.author none (μ.store.drops_withAccount o.author)

/-- A drop is announced once all checks but the last two are passed. The clock is read if the
first two are. -/
theorem screened_start (saves : ∀ operation, ¬W.Loses operation)
    (answers : W.Answers answer markup) {usable : Bool} {r : Checked DropStarted}
    (answered : answer (.usable o.channel o.token) = .ok usable) (fits : o.amount.units ≤ columnMax)
    (summed : (σ.store.held o.author none).units ≤ columnMax)
    (goes : (t.start o).Goes W Eq σ acts r τ) :
    ∃ openedAt, (Fault.first (entryChecks σ.store o.author o.amount t.minimumDrop) = none →
        W _ (.chore .now) openedAt) ∧
      Screened (t.dropChecks σ.store usable o openedAt) (t.Proceeds answer o openedAt σ)
        acts r τ := by
  have hentry : Screened (entryChecks σ.store o.author o.amount t.minimumDrop ++ [])
      (fun acts r τ => ∃ openedAt, W _ (.chore .now) openedAt ∧
        Screened (t.timedChecks σ.store usable o openedAt) (t.Proceeds answer o openedAt σ)
          acts r τ) acts r τ := by
    refine screens_entry saves (fun μ run same least => Program.screens_nil fun acts r τ goes => ?_)
      goes
    obtain ⟨openedAt, hnow, goes⟩ := Program.goes_now goes
    refine ⟨openedAt, hnow, Program.screens_check (fun deadline hdeadline => ?_) goes⟩
    refine Program.screens_call id (fun b hworld => (answers.calls _ _ b hworld).trans answered) ?_
    intro acts r τ goes
    cases usable with
    | false =>
      obtain ⟨rfl, rfl, rfl⟩ := goes
      exact .stopped rfl Act.silent_nil
    | true =>
      have hpassed : Fault.first [Fault.refusedIf (true = false) (.invalidToken o.token)] = none :=
        rfl
      have hfunds := screens_funds saves answers fits summed hdeadline same goes
      exact hfunds.after hpassed Act.silent_nil
  rw [List.append_nil] at hentry
  cases hentry with
  | stopped fault silent =>
    -- The clock was not read, so any moment will do.
    refine ⟨⟨0, by decide, none⟩, fun passed => ?_, ?_⟩
    · cases fault.symm.trans passed
    · exact .stopped (Fault.first_append_of_some fault) silent
  | passed passed silent goesOn =>
    obtain ⟨openedAt, hnow, screened⟩ := goesOn
    exact ⟨openedAt, fun _ => hnow, screened.after passed silent⟩

end Drops

/-! ### The first fault -/

section Admission
variable {α : Type} {f : Unit → Program α} {r : Checked α}

/-- An author who may not act is turned away, and nothing but the list has been asked. -/
theorem turned_away (saves : ∀ operation, ¬W.Loses operation)
    (listed : (σ.store.settings author).2 = true)
    (goes : (asRequest author (requireAllowed author >>= f)).Goes W Eq σ acts r τ) :
    r = .error (.refused (.blacklisted author)) ∧ acts = [] ∧
      (asRequest author (requireAllowed author >>= f)).Goes (W.only (Effect.IsAdmission author)) Eq
        σ acts r τ := by
  obtain ⟨_, id, rfl, hid, hwithin⟩ := (Program.goes_asked rfl).mp goes
  obtain ⟨_, old, _, rfl, hbind, hcommand, rfl, hrestore⟩ := Program.goes_within.mp hwithin
  have hfault : Fault.first [σ.store.listFault author] = some (.refused (.blacklisted author)) := by
    rw [Store.listFault, Fault.refusedIf_pos listed, Fault.first_some]
  rcases Program.goes_bind.mp hcommand with ⟨why, hfailed, rfl⟩ | ⟨_, μ, first, second, hdone, -⟩
  · obtain ⟨_, rfl, hworld, ⟨_, hnever, -⟩ | ⟨_, heq, hundone, rfl, rfl⟩⟩ :=
      Program.goes_transact.mp hfailed
    · cases hnever
    obtain rfl := Except.error.inj heq
    rcases hundone.faults requireAllowed_reports.fails with ⟨cause, rfl⟩ | ⟨hwhy | ⟨hnone, -⟩, -⟩
    · exact absurd ⟨_, _, cause, hworld⟩ (saves _)
    · obtain rfl := Option.some.inj (hfault.symm.trans hwhy)
      -- The same run, effect by effect, in the world that answers nothing else.
      refine ⟨rfl, rfl, (Program.goes_asked rfl).mpr ⟨_, id, rfl, ⟨.named, hid⟩, ?_⟩⟩
      refine Program.goes_within.mpr ⟨_, old, _, rfl, ⟨.bound _, hbind⟩, ?_, rfl,
        ⟨.restored _ _, hrestore⟩⟩
      exact Program.goes_bind.mpr (.inl ⟨_, Program.goes_transact.mpr
        ⟨_, rfl, ⟨.asked, hworld⟩, .inr ⟨_, rfl, hundone, rfl, rfl⟩⟩, rfl⟩)
    · cases hfault.symm.trans hnone
  · rcases Program.goes_transact_alone (saves _) requireAllowed_reports.fails hdone with
      ⟨_, -, ⟨_, desk, after, -, hgives, -⟩, -⟩ | ⟨_, hnever, -⟩
    · cases hfault.symm.trans (requireAllowed_reports.gives (σ.holds_begun desk) hgives)
    · cases hnever

end Admission

/-- How a command goes that makes checks in order. It reports the first fault and only that, and an
author who may not act is turned away by the list alone. -/
structure ChecksInOrder {α : Type} (W : World) (σ : State) (author : String) (command : Program α)
    (checks : List (Option Fault)) (acts : List Act) (r : Checked α) (τ : State) : Prop where
  reports : r.fault? = Fault.first checks
  turnedAway : (σ.store.settings author).2 = true →
    r = .error (.refused (.blacklisted author)) ∧ acts = [] ∧
      command.Goes (W.only (Effect.IsAdmission author)) Eq σ acts r τ

/-- How the start of a drop goes for which the clock is read at a moment, if it is read at all. -/
structure StartsInOrder (t : Tipping) (W : World) (answer : (c : Call) → Except CallFault c.Reply)
    (usable : Bool) (o : Order) (openedAt : Moment) (σ : State) (acts : List Act)
    (r : Checked DropStarted) (τ : State) : Prop where
  clock : Fault.first (entryChecks σ.store o.author o.amount t.minimumDrop) = none →
    W _ (.chore .now) openedAt
  checked : ChecksInOrder W σ o.author (t.start o)
    (t.dropChecks σ.store usable o openedAt ++ t.lastChecks answer o openedAt) acts r τ
  announced : ∀ c, .called c ∈ acts → c.IsMessage →
    Fault.first (t.dropChecks σ.store usable o openedAt) = none
  opens : ∀ started, r = .ok started →
    ∃ row n u shown, t.Opens o openedAt σ τ acts started row n u shown

theorem start_inOrder {answer : (c : Call) → Except CallFault c.Reply} {markup : String → String}
    {usable : Bool} {o : Order} {r : Checked DropStarted} (saves : ∀ operation, ¬W.Loses operation)
    (answers : W.Answers answer markup) (answered : answer (.usable o.channel o.token) = .ok usable)
    (fits : o.amount.units ≤ columnMax) (summed : (σ.store.held o.author none).units ≤ columnMax)
    (goes : (t.start o).Goes W Eq σ acts r τ) :
    ∃ openedAt, t.StartsInOrder W answer usable o openedAt σ acts r τ := by
  obtain ⟨openedAt, hnow, screened⟩ := screened_start saves answers answered fits summed goes
  refine ⟨openedAt, hnow, ⟨screened.reports fun _ h => h.reports, fun listed =>
    turned_away saves listed goes⟩, fun c hc message => ?_, fun started hstarted => ?_⟩
  · cases screened with
    | stopped fault silent => exact absurd message (silent c hc)
    | passed passed silent goesOn => exact passed
  · cases screened with
    | stopped fault silent => cases hstarted
    | passed passed silent goesOn =>
      obtain ⟨row, n, u, shown, opens⟩ := goesOn.opens started hstarted
      exact ⟨row, n, u, shown, { opens with posted := List.mem_append_right _ opens.posted }⟩

/-- **The first fault is reported.** However many checks of a command fail at once, as long as no
balance has outgrown its column it fails with the first of them: the list of those who may not act,
the least amount, what is particular to the command, the names of accounts and then the funds. An
author on the list is turned away before a balance is read or the platform is asked. A drop is
announced only if all the checks before that are passed; once it is started its row waits with the
amount put aside, and the announcement tells the amount and the minutes that the row has left. -/
theorem first_fault_reported {answer : (c : Call) → Except CallFault c.Reply}
    {markup : String → String} (h : σ.Contained) (honest : t.execute = Ledger.execute)
    (saves : ∀ operation, ¬W.Loses operation) (answers : W.Answers answer markup) :
    (∀ author channel recipient amount acts r τ, amount.units ≤ columnMax →
      (t.tipAccount author channel recipient amount).Goes W Eq σ acts r τ →
        ChecksInOrder W σ author (t.tipAccount author channel recipient amount)
          (t.tipChecks σ.store author recipient amount) acts r τ) ∧
    (∀ author channel role members amount acts r τ, answer (.members role) = .ok members →
      amount.units ≤ columnMax → (t.tipRole author channel role amount).Goes W Eq σ acts r τ →
        ChecksInOrder W σ author (t.tipRole author channel role amount)
          (t.roleChecks σ.store author members amount) acts r τ) ∧
    ∀ (o : Order) usable acts r τ, answer (.usable o.channel o.token) = .ok usable →
      o.amount.units ≤ columnMax → (t.start o).Goes W Eq σ acts r τ →
        ∃ openedAt, t.StartsInOrder W answer usable o openedAt σ acts r τ := by
  have mentions : W.Mentions := fun account b hworld => ⟨_, answers.mentions account b hworld⟩
  refine ⟨fun author channel recipient amount acts r τ fits goes => ?_,
    fun author channel role members amount acts r τ answered fits goes => ?_,
    fun o usable acts r τ answered fits goes => start_inOrder saves answers answered fits
      (h.counts o.author none).held goes⟩
  · have screened := screens_tipAccount h honest saves mentions fits goes
    rw [← List.append_nil (t.tipChecks ..)]
    exact ⟨screened.reports fun _ h => h, fun listed => turned_away saves listed goes⟩
  · have hanswered (b) (hworld : W _ (.call (.members role) none) b) : b = .ok members :=
      (answers.calls _ _ b hworld).trans answered
    have screened := screens_tipRole h honest saves mentions hanswered fits goes
    rw [← List.append_nil (t.roleChecks ..)]
    exact ⟨screened.reports fun _ h => h, fun listed => turned_away saves listed goes⟩

end Tipping

/-! ### Checks that fail together

Alice has ten units. She tips twenty to herself and to a role that has no members, and then starts a
drop of seven that lasts a minute. -/

namespace Sample

def smallOrder : Tipping.Order := ⟨"alice", "town", "hand", ⟨7⟩, .int 1, .scalar (.unit .minutes)⟩

/-- A transfer that is refused by its own check. -/
theorem goes_refused {i : Transfer.Intent} {minimum : Amount} {why : SplitFault}
    (improper : i.check minimum = .error (.invalidSplit why)) :
    (wired.tipping.settle i "town" minimum).Goes (.prompt deafBob) Eq funded []
      (.error (.refused (.invalidSplit why))) funded := by
  have herror : Ledger.execute i minimum none (funded.begun (desk 1)) =
      (.error (.refused (.invalidSplit why)), funded.begun (desk 1)) := by
    unfold Ledger.execute
    rw [improper]
    rfl
  exact Program.goes_bind.mpr (.inl ⟨_,
    Program.goes_undone rfl (State.undoes_of_error herror) ⟨trivial, trivial⟩, rfl⟩)

theorem goes_selfTip : (wired.tipping.tipAccount "alice" "town" "alice" ⟨20⟩).Goes
    (.prompt deafBob) Eq funded [.kept ⟨"check_blacklist", funded, funded⟩]
      (.error (.refused (.invalidSplit .sourceAmongDestinations))) funded :=
  goes_asRequest (by decide) (goes_refused rfl)

theorem goes_lonelyTip : (wired.tipping.tipRole "alice" "town" "guests" ⟨20⟩).Goes
    (.prompt deafBob) Eq funded
      [.kept ⟨"check_blacklist", funded, funded⟩, .called (.members "guests")]
      (.error (.refused (.invalidSplit .noDestinations))) funded :=
  goes_asRequest (by decide) (.andThen (goes_replied rfl) (goes_refused rfl))

end Sample

/-- Alice is told what is wrong with her tips and not that she could not pay them. Her drop is
announced as it is kept. -/
theorem Tipping.sample_first_fault :
    (∃ acts r τ, (Sample.wired.tipping.tipAccount "alice" "town" "alice" ⟨20⟩).Goes
        (.prompt Sample.deafBob) Eq Sample.funded acts r τ ∧
      r.fault? = some (.refused (.invalidSplit .sourceAmongDestinations))) ∧
    (∃ acts r τ, (Sample.wired.tipping.tipRole "alice" "town" "guests" ⟨20⟩).Goes
        (.prompt Sample.deafBob) Eq Sample.funded acts r τ ∧
      r.fault? = some (.refused (.invalidSplit .noDestinations))) ∧
    Sample.funded.store.fundsFault "alice" ⟨20⟩ ≠ none ∧
    ∃ acts started τ row shown, (Sample.wired.tipping.start Sample.smallOrder).Goes
        (.prompt Sample.deafBob) Eq Sample.funded acts (.ok started) τ ∧
      τ.store.drop? started.drop.id = some row ∧ row.has .pending = true ∧ row.amount = ⟨7⟩ ∧
        started.announcement = Drop.opening shown "hand" 0 1 := by
  obtain ⟨tip, role, drop⟩ := Tipping.first_fault_reported (t := Sample.wired.tipping)
    Sample.contained_funded rfl World.not_loses_prompt (World.answers_prompt Sample.deafBob)
  refine ⟨⟨_, _, _, Sample.goes_selfTip, ?_⟩, ⟨_, _, _, Sample.goes_lonelyTip, ?_⟩,
    by decide +kernel, ?_⟩
  · exact (tip _ _ _ _ _ _ _ (by decide) Sample.goes_selfTip).reports
  · exact (role _ _ _ _ _ _ _ _ rfl (by decide) Sample.goes_lonelyTip).reports
  · obtain ⟨text, goes⟩ := Sample.goes_started
    obtain ⟨openedAt, starts⟩ := drop Sample.smallOrder true _ _ _ rfl (by decide) goes
    obtain ⟨row, n, u, shown, opens⟩ := starts.opens _ rfl
    have hcount : n = 1 := by
      cases opens.granted.count
      rfl
    have hunit : u = .minutes := Except.ok.inj opens.granted.unit.symm
    obtain ⟨hours, minutes, hsum, few, htext⟩ := opens.announced
    rw [hcount, hunit] at hsum
    change 60 * hours + minutes = 1 at hsum
    obtain ⟨rfl, rfl⟩ : hours = 0 ∧ minutes = 1 := by omega
    exact ⟨_, _, _, row, shown, goes, opens.stored, opens.pending, opens.amount, htext⟩

end TipJar
