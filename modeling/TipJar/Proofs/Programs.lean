import TipJar.Operator.Basic
import TipJar.Program.Audit
import TipJar.Proofs.Orderly

/-! All programs are orderly.

Commands ask, open accounts, tip and create drops; a sweeper pays out what it has
claimed itself and nothing else; telling people and auditing change nothing. So
whoever runs any of these programs, whatever the platform answers and however long
it takes, adds nothing but deeds to the run of everybody. -/
namespace TipJar
open Ledger

/-! ### Questions -/

namespace Ledger

theorem reads_requireAllowed (who : Value) : (requireAllowed who).Reads := by
  refine (Work.reads_check.bind fun _ => Work.reads_read).bind fun blacklisted => ?_
  cases blacklisted with
  | true => exact Work.reads_note.bind fun _ => Work.reads_throw
  | false => exact Work.reads_pure

theorem reads_preferencesOf (names : List String) : (preferencesOf names).Reads := by
  unfold preferencesOf
  split
  · exact Work.reads_pure
  · exact Work.reads_tables.bind fun _ => Work.reads_check

theorem reads_findDue (asOf : Moment) (limit : Option Int) : (findDue asOf limit).Reads := by
  refine Work.reads_stored.bind fun _ => ?_
  cases limit with
  | none => exact Work.reads_read
  | some n => exact Work.reads_column.bind fun _ => Work.reads_read

theorem reads_findStalled (asOf : Moment) (seconds : Value) : (findStalled asOf seconds).Reads :=
  Work.reads_check.bind fun _ => Work.reads_check.bind fun _ => Work.reads_stored.bind fun _ =>
    Work.reads_read

theorem reads_shownEntries (ask : Store → List Entry) : (shownEntries ask).Reads :=
  Work.reads_read.bind fun _ => Work.reads_check

theorem reads_shownDrops (ask : Store → List Drop) : (shownDrops ask).Reads :=
  Work.reads_read.bind fun _ => Work.reads_check

theorem reads_historyOf (who : Value) (limit : Option Int) : (historyOf who limit none).Reads := by
  refine Work.reads_check.bind fun key => ?_
  cases limit with
  | none => cases key <;> exact reads_shownEntries _
  | some n =>
    refine Work.reads_column.bind fun _ => ?_
    cases key <;> exact reads_shownEntries _

theorem reads_flowOf (who : Value) : (flowOf who).Reads := by
  refine Work.reads_check.bind fun key => ?_
  cases key with
  | none => exact Work.reads_read
  | some name =>
    exact Work.reads_read.bind fun flow => (reads_summed _).bind fun _ => Work.reads_pure

theorem reads_custodialTotal : custodialTotal.Reads := by
  refine Work.reads_tables.bind fun s => ?_
  split
  · exact (reads_summed _).bind fun _ => Work.reads_pure
  · exact Work.reads_pure

theorem reads_dropsOfStatus (status : Value) (limit : Option Int) :
    (dropsOfStatus status limit).Reads := by
  refine Work.reads_check.bind fun _ => ?_
  cases limit with
  | none => exact reads_shownDrops _
  | some n => exact Work.reads_column.bind fun _ => reads_shownDrops _

end Ledger

section Programs
variable {given : List Mark}

namespace Notifier
variable {n : Notifier}

theorem orderly_send {target channel : String} {c : Call} :
    (n.send target channel c).IsOrderly given := by
  refine Program.orderly_tryCall.bind fun answer => ?_
  cases answer with
  | ok reply => exact Program.orderly_done _
  | error why => exact Program.orderly_note.bind fun _ => Program.orderly_done _

theorem orderly_tell {recipient sender : String} {share : Amount} :
    (n.tell recipient sender share).IsOrderly given :=
  (Program.orderly_done _).bind fun _ => orderly_send.bind fun _ => Program.orderly_done _

theorem orderly_targetOf {recipient : String} {plan : Delivery} :
    (n.targetOf recipient plan).IsOrderly given := by
  unfold targetOf
  split
  · exact Program.orderly_mention
  · refine Program.IsOrderly.bind (Program.orderly_tryCall.bind fun answer => ?_) fun _ =>
      Program.orderly_done _
    cases answer <;> exact Program.orderly_done _

theorem orderly_notifyOne {r : Transfer.Receipt} {channel recipient : String}
    {preferences : Preferences} :
    (n.notifyOne r channel recipient preferences).IsOrderly given := by
  refine (Program.orderly_done _).bind fun preference => (Program.orderly_done _).bind fun _ =>
    Program.orderly_mention.bind fun _ => orderly_targetOf.bind fun _ =>
    orderly_send.bind fun _ => ?_
  by_cases direct : (Delivery.of preference).direct
  · rw [if_pos direct]
    exact orderly_tell.bind fun _ => Program.orderly_done _
  · rw [if_neg direct]
    exact Program.orderly_done _

theorem orderly_tellEach {sender : String} {share : Amount} {preferences : Preferences}
    {recipients : List String} :
    (n.tellEach sender share preferences recipients).IsOrderly given := by
  induction recipients with
  | nil => exact Program.orderly_done _
  | cons recipient rest ih =>
    refine (Program.orderly_done _).bind fun preference => ?_
    by_cases direct : (Delivery.of preference).direct
    · rw [if_pos direct]
      exact orderly_tell.bind fun _ => ih.bind fun _ => Program.orderly_done _
    · rw [if_neg direct]
      exact ih

theorem orderly_notifyMany {r : Transfer.Receipt} {channel : String} {preferences : Preferences} :
    (n.notifyMany r channel preferences).IsOrderly given :=
  Program.orderly_mention.bind fun _ => (Program.orderly_done _).bind fun _ =>
    orderly_send.bind fun _ => orderly_tellEach.bind fun _ => Program.orderly_done _

theorem orderly_preferencesFor {recipients : List String} :
    (n.preferencesFor recipients).IsOrderly given := by
  unfold preferencesFor
  split
  · exact Program.orderly_done _
  · refine (Program.orderly_asks (reads_preferencesOf recipients)).attempt.bind fun found => ?_
    split
    · exact Program.orderly_done _
    · exact Program.orderly_note.bind fun _ => Program.orderly_done _
    · exact Program.orderly_done _

/-- Telling people about a transfer changes nothing. -/
theorem orderly_notify {r : Transfer.Receipt} {channel : String}
    {preferences : Option Preferences} : (n.notify r channel preferences).IsOrderly given := by
  unfold notify
  cases preferences with
  | none =>
    refine orderly_preferencesFor.bind fun found => ?_
    dsimp only
    split
    · exact orderly_notifyOne.bind fun _ => Program.orderly_note.bind fun _ =>
        Program.orderly_done _
    · exact orderly_notifyMany.bind fun _ => Program.orderly_note.bind fun _ =>
        Program.orderly_done _
  | some preferences =>
    refine (Program.orderly_done _).bind fun found => ?_
    dsimp only
    split
    · exact orderly_notifyOne.bind fun _ => Program.orderly_note.bind fun _ =>
        Program.orderly_done _
    · exact orderly_notifyMany.bind fun _ => Program.orderly_note.bind fun _ =>
        Program.orderly_done _

end Notifier

namespace Tipping
variable {t : Tipping} {author channel : String} {amount : Amount}

theorem orderly_asRequest {α : Type} {command : Program α} (h : command.IsOrderly given) :
    (asRequest author command).IsOrderly given :=
  Program.orderly_freshId.bind fun _ => h.within

theorem orderly_requireAllowed : (requireAllowed author).IsOrderly given :=
  Program.orderly_asks (reads_requireAllowed _)

theorem orderly_requireMinimum {minimum : Amount} :
    (requireMinimum amount minimum).IsOrderly given := by
  unfold requireMinimum
  split <;> exact Program.orderly_done _

/-- A tip is a deed, as long as it is executed as tips are. -/
theorem orderly_settle (honest : t.execute = Ledger.execute) {i : Transfer.Intent}
    (tip : i.kind ≠ .drop) {minimum : Amount} : (t.settle i channel minimum).IsOrderly given := by
  unfold settle
  rw [honest]
  exact (Program.orderly_does (.tip i minimum) tip rfl).bind fun _ =>
    Notifier.orderly_notify.bind fun _ => Program.orderly_done _

theorem orderly_tipAccount (honest : t.execute = Ledger.execute) {recipient : String} :
    (t.tipAccount author channel recipient amount).IsOrderly given :=
  orderly_asRequest (orderly_requireAllowed.bind fun _ => orderly_requireMinimum.bind fun _ =>
    orderly_settle honest (by simp))

theorem orderly_tipRole (honest : t.execute = Ledger.execute) {role : String} :
    (t.tipRole author channel role amount).IsOrderly given :=
  orderly_asRequest (orderly_requireAllowed.bind fun _ => orderly_requireMinimum.bind fun _ =>
    Program.orderly_call.bind fun _ => orderly_settle honest (by simp))

theorem orderly_announce {text : String} : (t.announce channel text).IsOrderly given := by
  refine Notifier.orderly_send.bind fun posted => ?_
  cases posted <;> exact Program.orderly_done _

theorem orderly_seed {message token : String} : (seed channel message token).IsOrderly given := by
  refine Program.orderly_tryCall.bind fun answer => ?_
  cases answer with
  | ok => exact Program.orderly_done _
  | error => exact Program.orderly_note

theorem orderly_keep {r : DropRequest} : (keep r).IsOrderly given := by
  refine (Program.orderly_does (.create r) trivial rfl).attempt.bind fun written => ?_
  cases written with
  | ok drop => exact Program.orderly_done _
  | error why =>
    cases why with
    | refused => exact Program.orderly_note.bind fun _ => Program.orderly_done _
    | _ => exact Program.orderly_done _

theorem orderly_startDrop {token : String} {duration unit : Value} :
    (t.startDrop author channel token amount duration unit).IsOrderly given := by
  refine orderly_asRequest (orderly_requireAllowed.bind fun _ =>
    orderly_requireMinimum.bind fun _ => Program.orderly_now.bind fun _ =>
    (Program.orderly_done _).bind fun _ => Program.orderly_call.bind fun usable => ?_)
  cases usable with
  | false => exact Program.orderly_done _
  | true =>
    exact (Program.orderly_does (.checkFunds (.text author) amount) trivial rfl).bind fun _ =>
      (Program.orderly_done _).bind fun _ => orderly_announce.bind fun _ =>
      orderly_seed.bind fun _ => orderly_keep.bind fun _ => Program.orderly_done _

theorem orderly_balance {who : Value} : (balance who).IsOrderly given :=
  Program.orderly_does (.view who none) trivial rfl

theorem orderly_setPreference {who preference : Value} :
    (setPreference who preference).IsOrderly given :=
  Program.orderly_does (.prefer who preference) trivial rfl

end Tipping

namespace Sweeper
variable {s : Sweeper}

theorem orderly_lost {drop : Uuid} {status : String} : (lost drop status).IsOrderly given :=
  Program.orderly_note.bind fun _ => Program.orderly_done _

theorem orderly_abandon {d : Drop} {reason told : String} {participants : Option Int} :
    (abandon d reason told participants).IsOrderly given := by
  have hwork : (Deed.fail d.id reason participants).work = (do
      let time ← Work.now
      markFailed d.id reason time participants) >>= fun _ => pure [] := by
    simp [Deed.work]
  refine Program.orderly_note.bind fun _ =>
    (Program.orderly_does (.fail d.id reason participants) trivial hwork).attempt.bind
      fun written => ?_
  dsimp only
  split
  · exact Program.orderly_done _
  · exact Program.orderly_noteFault.bind fun _ => Program.orderly_done _
  · exact Program.orderly_note.bind fun _ => Program.orderly_done _
  · exact (Program.orderly_done _).bind fun _ => Program.orderly_done _

theorem orderly_expire {d : Drop} : (expire d).IsOrderly given := by
  have hwork : (Deed.expire d.id).work = (do
      let time ← Work.now
      markExpired d.id time) >>= fun _ => pure [] := by
    simp [Deed.work]
  refine (Program.orderly_does (.expire d.id) trivial hwork).attempt.bind fun written => ?_
  split
  · exact Program.orderly_note.bind fun _ => Program.orderly_done _
  · exact orderly_lost
  · exact Program.orderly_done _

/-- What was claimed may be paid out. -/
theorem orderly_settle (honest : s.execute = Ledger.execute) {d : Drop}
    (claimed : .claimed d ∈ given) {participants : List String} :
    (s.settle d participants).IsOrderly given := by
  have hpays : (Program.transact "settle_reactdrop" (s.payOut d participants)).IsOrderly given :=
    Program.orderly_transact fun seen hseen =>
      ⟨_, .inr ⟨.payOut s d participants, ⟨honest, hseen claimed⟩, rfl⟩⟩
  refine hpays.attempt.bind fun paid => ?_
  dsimp only
  split
  · refine Program.orderly_note.bind fun _ => ?_
    split
    · exact Notifier.orderly_notify.bind fun _ => Program.orderly_done _
    · exact Program.orderly_done _
  · exact orderly_lost
  · split
    · exact orderly_abandon
    · split
      · exact orderly_abandon
      · exact Program.orderly_done _
  · exact Program.orderly_done _

/-- A sweeper pays out what it has claimed, and nothing else. -/
theorem orderly_settleOne (honest : s.execute = Ledger.execute) {id : Uuid} :
    (s.settleOne id).IsOrderly given := by
  have hwork : (Deed.claim id).work = (do
      let time ← Work.now
      Ledger.claim id time) >>= fun d => pure [.claimed d] := by
    simp [Deed.work]
  intro seen hseen
  refine ⟨_, .inr ⟨.claim id, trivial, hwork⟩, fun d => ?_, fun why => ?_⟩
  · have hgiven : .claimed d :: given ⊆ seen ++ [.claimed d] :=
      List.cons_subset.mpr ⟨List.mem_append_right _ List.mem_cons_self,
        List.subset_append_of_subset_left _ hseen⟩
    refine Program.IsOrderly.keeps_of_cons (Program.orderly_tryCall.bind fun answer => ?_) hgiven
    split
    · exact orderly_abandon
    · split
      · exact orderly_expire
      · exact orderly_settle honest List.mem_cons_self
  · cases why with
    | refused refusal =>
      cases refusal <;> exact hseen
    | _ => exact hseen

theorem orderly_settleEach (honest : s.execute = Ledger.execute) {drops : List Drop} :
    (s.settleEach drops).IsOrderly given := by
  induction drops with
  | nil => exact Program.orderly_done _
  | cons d rest ih =>
    refine Program.orderly_stopping.bind fun stop => ?_
    cases stop with
    | true => exact Program.orderly_done _
    | false =>
      exact (orderly_settleOne honest).within.bind fun _ => ih.bind fun _ => Program.orderly_done _

theorem orderly_sweep (honest : s.execute = Ledger.execute) : s.sweep.IsOrderly given := by
  have hdue (startedAt : Moment) : (do
      Work.check ((← findDue startedAt (some s.batch)).mapM readDrop) : Work (List Drop)).Reads :=
    (reads_findDue _ _).bind fun _ => Work.reads_check
  refine Program.orderly_now.bind fun startedAt =>
    (Program.orderly_does (.failStalled startedAt s.stalledAfter) trivial rfl).bind fun _ =>
    (Program.orderly_asks (hdue startedAt)).bind fun _ =>
    (orderly_settleEach honest).bind fun _ => ?_
  dsimp only
  split
  · exact Program.orderly_note.bind fun _ => Program.orderly_done _
  · exact Program.orderly_done _

theorem orderly_round (honest : s.execute = Ledger.execute) : s.round.IsOrderly given := by
  refine (orderly_sweep honest).attempt.bind fun result => ?_
  dsimp only
  split
  · exact Program.orderly_noteFault.bind fun _ => Program.orderly_done _
  · exact Program.orderly_done _

end Sweeper

theorem Supply.orderly_audit : Program.IsOrderly Supply.audit given := by
  have hreport : (do
      return (← custodialTotal, ← accountCount) : Work (Amount × Nat)).Reads :=
    reads_custodialTotal.bind fun _ => Work.reads_read.bind fun _ => Work.reads_pure
  refine Program.orderly_wallet.bind fun figures => (Program.orderly_asks hreport).bind fun found =>
    Program.orderly_now.bind fun madeAt => ?_
  dsimp only
  split
  · exact Program.orderly_note.bind fun _ => Program.orderly_done _
  · exact Program.orderly_done _

end Programs

/-! ### The operator's tool -/

namespace Operator

/-- The operator's commands only read, or are deeds. -/
theorem isKnown_work (c : Config) (today : Moment) (command : Command) (history : List Mark) :
    ∃ marks, (command.work c today).IsKnown history marks := by
  cases command with
  | createTables =>
    refine ⟨_, Work.Reads.isKnown ?_ history⟩
    intro desk s _ after hs h
    obtain ⟨_, _, hcreated, hprinted⟩ := Work.gives_bind.mp h
    obtain ⟨-, rfl⟩ := Work.gives_pure.mp hprinted
    rw [← Work.gives_modify.mp hcreated]
    unfold Operator.createTables
    rw [hs.tables]
    exact hs.note ..
  | balance account =>
    refine ⟨fun _ => [], .inr ⟨.view (.text account) none, trivial, ?_⟩⟩
    simp [Deed.work, Command.work]
  | deposit account coins =>
    cases hcoins : Amount.ofCoins (.text coins) with
    | error why =>
      refine ⟨_, Work.Reads.isKnown ?_ history⟩
      intro desk s _ after hs h
      simp [Command.work, hcoins, Work.gives_bind] at h
    | ok amount =>
      refine ⟨fun _ => [.deposited ((Value.text account).text?.getD "") amount],
        .inr ⟨.deposit (.text account) amount, trivial, ?_⟩⟩
      simp [Deed.work, Command.work, hcoins, Work.check]
  | history account limit =>
    refine ⟨_, Work.Reads.isKnown ?_ history⟩
    exact (reads_historyOf _ _).bind fun _ => (reads_flowOf _).bind fun _ => Work.reads_pure
  | blacklist account lift =>
    refine ⟨fun _ => [], .inr ⟨.blacklist (.text account) (!lift), trivial, ?_⟩⟩
    simp [Deed.work, Command.work]
  | drops status limit =>
    refine ⟨_, Work.Reads.isKnown ?_ history⟩
    exact (reads_dropsOfStatus _ _).bind fun _ => Work.reads_pure
  | stalled =>
    refine ⟨_, Work.Reads.isKnown ?_ history⟩
    exact (reads_findStalled _ _).bind fun _ => Work.reads_check.bind fun _ => Work.reads_pure

end Operator
end TipJar
