import TipJar.Proofs.Bindings
import TipJar.Proofs.Commands

/-! What is in force when a command comes back.

A command binds its request and its author, a sweep the drop that it settles, and a
transfer its event and its source, one inside the other. All of them are balanced, by the
shape of their text: so a caller that gets an answer or a fault from any of them finds the
identifiers that it had. -/
namespace TipJar
open Ledger Program

/-- Whether an executor leaves the identifiers of its caller. -/
def Executor.IsBalanced (execute : Executor) : Prop :=
  ∀ i minimum except, (execute i minimum except).IsBalanced

namespace Notifier
variable {n : Notifier}

theorem balanced_send {target channel : String} {c : Call} :
    (n.send target channel c).IsBalanced := by
  refine balanced_tryCall.bind fun answer => ?_
  cases answer with
  | ok reply => exact balanced_done _
  | error why => exact Program.balanced_note.bind fun _ => balanced_done _

theorem balanced_tell {recipient sender : String} {share : Amount} :
    (n.tell recipient sender share).IsBalanced :=
  (balanced_done _).bind fun _ => balanced_send.bind fun _ => balanced_done _

theorem balanced_targetOf {recipient : String} {plan : Delivery} :
    (n.targetOf recipient plan).IsBalanced := by
  unfold targetOf
  split
  · exact balanced_mention
  · refine Program.IsBalanced.bind (balanced_tryCall.bind fun answer => ?_) fun _ => balanced_done _
    cases answer <;> exact balanced_done _

theorem balanced_notifyOne {r : Transfer.Receipt} {channel recipient : String}
    {preferences : Preferences} : (n.notifyOne r channel recipient preferences).IsBalanced := by
  refine (balanced_done _).bind fun preference => (balanced_done _).bind fun _ =>
    balanced_mention.bind fun _ => balanced_targetOf.bind fun _ => balanced_send.bind fun _ => ?_
  split
  · exact balanced_tell.bind fun _ => balanced_done _
  · exact balanced_done _

theorem balanced_tellEach {sender : String} {share : Amount} {preferences : Preferences}
    {recipients : List String} : (n.tellEach sender share preferences recipients).IsBalanced := by
  induction recipients with
  | nil => exact balanced_done _
  | cons recipient rest ih =>
    refine (balanced_done _).bind fun preference => ?_
    dsimp only
    split
    · exact balanced_tell.bind fun _ => ih.bind fun _ => balanced_done _
    · exact ih

theorem balanced_notifyMany {r : Transfer.Receipt} {channel : String}
    {preferences : Preferences} : (n.notifyMany r channel preferences).IsBalanced :=
  balanced_mention.bind fun _ => (balanced_done _).bind fun _ => balanced_send.bind fun _ =>
    balanced_tellEach.bind fun _ => balanced_done _

theorem balanced_preferencesFor {recipients : List String} :
    (n.preferencesFor recipients).IsBalanced := by
  unfold preferencesFor
  split
  · exact balanced_done _
  · refine (balanced_transact balanced_preferencesOf).attempt.bind fun found => ?_
    split
    · exact balanced_done _
    · exact Program.balanced_note.bind fun _ => balanced_done _
    · exact balanced_done _

theorem balanced_notify {r : Transfer.Receipt} {channel : String}
    {preferences : Option Preferences} : (n.notify r channel preferences).IsBalanced := by
  have hsent {sends : Program (List (Option Undelivered))} (h : sends.IsBalanced) :
      (do
        let report := DeliveryReport.ofSends r.event (← sends)
        Program.note .info part "settlement_notified"
          [("event_id", .text r.event.text), ("attempted", .nat report.attempted),
           ("delivered", .nat report.delivered), ("failed", .nat report.failures.length)]
        return report : Program DeliveryReport).IsBalanced :=
    h.bind fun _ => Program.balanced_note.bind fun _ => balanced_done _
  unfold notify
  cases preferences with
  | none =>
    refine balanced_preferencesFor.bind fun found => ?_
    dsimp only
    split
    · exact hsent balanced_notifyOne
    · exact hsent balanced_notifyMany
  | some given =>
    dsimp only
    split
    · exact hsent balanced_notifyOne
    · exact hsent balanced_notifyMany

end Notifier

namespace Tipping
variable {t : Tipping} {author channel : String} {amount : Amount}

theorem balanced_asRequest {α : Type} {command : Program α} (h : command.IsBalanced) :
    (asRequest author command).IsBalanced :=
  Program.balanced_freshId.bind fun _ => h.within

theorem balanced_requireMinimum {minimum : Amount} :
    (requireMinimum amount minimum).IsBalanced := by
  unfold requireMinimum
  split <;> exact balanced_done _

/-- What every command begins with. -/
theorem balanced_opening {α : Type} {minimum : Amount} {command : Program α}
    (h : command.IsBalanced) :
    (asRequest author do
      requireAllowed author
      requireMinimum amount minimum
      command).IsBalanced :=
  balanced_asRequest <| (balanced_transact balanced_requireAllowed).bind fun _ =>
    balanced_requireMinimum.bind fun _ => h

theorem balanced_settle (he : t.execute.IsBalanced) {i : Transfer.Intent} {minimum : Amount} :
    (t.settle i channel minimum).IsBalanced :=
  (balanced_transact (he _ _ _)).bind fun _ => Notifier.balanced_notify.bind fun _ =>
    balanced_done _

theorem balanced_tipAccount (he : t.execute.IsBalanced) {recipient : String} :
    (t.tipAccount author channel recipient amount).IsBalanced :=
  balanced_opening (balanced_settle he)

theorem balanced_tipRole (he : t.execute.IsBalanced) {role : String} :
    (t.tipRole author channel role amount).IsBalanced :=
  balanced_opening (balanced_call.bind fun _ => balanced_settle he)

theorem balanced_announce {text : String} : (t.announce channel text).IsBalanced := by
  refine Notifier.balanced_send.bind fun posted => ?_
  cases posted <;> exact balanced_done _

theorem balanced_seed {message token : String} : (seed channel message token).IsBalanced := by
  refine balanced_tryCall.bind fun answer => ?_
  cases answer with
  | ok => exact balanced_done _
  | error => exact Program.balanced_note

theorem balanced_keep {r : DropRequest} : (keep r).IsBalanced := by
  refine (balanced_transact balanced_createDrop).attempt.bind fun written => ?_
  cases written with
  | ok drop => exact balanced_done _
  | error why =>
    cases why with
    | refused => exact Program.balanced_note.bind fun _ => balanced_done _
    | _ => exact balanced_done _

theorem balanced_startDrop {token : String} {duration unit : Value} :
    (t.startDrop author channel token amount duration unit).IsBalanced := by
  refine balanced_opening (Program.balanced_now.bind fun _ => (balanced_done _).bind fun _ =>
    balanced_call.bind fun usable => ?_)
  cases usable with
  | false => exact balanced_done _
  | true =>
    exact (balanced_transact balanced_checkAvailable).bind fun _ => (balanced_done _).bind fun _ =>
      balanced_announce.bind fun _ => balanced_seed.bind fun _ => balanced_keep.bind fun _ =>
      balanced_done _

end Tipping

namespace Sweeper
variable {s : Sweeper}

theorem balanced_lost {drop : Uuid} {status : String} : (lost drop status).IsBalanced :=
  Program.balanced_note.bind fun _ => balanced_done _

theorem balanced_abandon {d : Drop} {reason told : String} {participants : Option Int} :
    (abandon d reason told participants).IsBalanced := by
  refine Program.balanced_note.bind fun _ =>
    (balanced_transact (Work.balanced_now.bind fun _ => balanced_markFailed)).attempt.bind
      fun written => ?_
  dsimp only
  split
  · exact balanced_done _
  · exact balanced_noteFault.bind fun _ => balanced_done _
  · exact Program.balanced_note.bind fun _ => balanced_done _
  · exact (balanced_done _).bind fun _ => balanced_done _

theorem balanced_expire {d : Drop} : (expire d).IsBalanced := by
  refine (balanced_transact <| Work.balanced_now.bind fun _ => Work.balanced_stored.bind fun _ =>
    balanced_transition).attempt.bind fun written => ?_
  split
  · exact Program.balanced_note.bind fun _ => balanced_done _
  · exact balanced_lost
  · exact balanced_done _

theorem balanced_payOut (he : s.execute.IsBalanced) {d : Drop} {participants : List String} :
    (s.payOut d participants).IsBalanced :=
  (he _ _ _).bind fun _ => balanced_markSettled.bind fun _ => Work.balanced_pure

theorem balanced_settle (he : s.execute.IsBalanced) {d : Drop} {participants : List String} :
    (s.settle d participants).IsBalanced := by
  refine (balanced_transact (balanced_payOut he)).attempt.bind fun paid => ?_
  dsimp only
  split
  · refine Program.balanced_note.bind fun _ => ?_
    split
    · exact Notifier.balanced_notify.bind fun _ => balanced_done _
    · exact balanced_done _
  · exact balanced_lost
  · split
    · exact balanced_abandon
    · split
      · exact balanced_abandon
      · exact balanced_done _
  · exact balanced_done _

theorem balanced_settleOne (he : s.execute.IsBalanced) {id : Uuid} :
    (s.settleOne id).IsBalanced := by
  refine (balanced_transact <| Work.balanced_now.bind fun _ => Work.balanced_stored.bind fun _ =>
    balanced_transition).attempt.bind fun claimed => ?_
  split
  · exact balanced_done _
  · exact balanced_done _
  · refine balanced_tryCall.bind fun answer => ?_
    split
    · exact balanced_abandon
    · split
      · exact balanced_expire
      · exact balanced_settle he

theorem balanced_settleEach (he : s.execute.IsBalanced) {drops : List Drop} :
    (s.settleEach drops).IsBalanced := by
  induction drops with
  | nil => exact balanced_done _
  | cons d rest ih =>
    refine balanced_stopping.bind fun stop => ?_
    cases stop with
    | true => exact balanced_done _
    | false =>
      exact (balanced_settleOne he).within.bind fun _ => ih.bind fun _ => balanced_done _

theorem balanced_sweep (he : s.execute.IsBalanced) : s.sweep.IsBalanced := by
  refine Program.balanced_now.bind fun _ => (balanced_transact balanced_failStalled).bind fun _ =>
    (balanced_transact (balanced_findDue.bind fun _ => Work.balanced_check)).bind fun _ =>
    (balanced_settleEach he).bind fun _ => ?_
  dsimp only
  split
  · exact Program.balanced_note.bind fun _ => balanced_done _
  · exact balanced_done _

end Sweeper

/-- **Whatever was bound is undone.** However blocks are nested and whatever their bodies set,
clear, bind or fail with, a block that is left gives back what it has bound and keeps the rest as
its body left it. A transfer, a settlement, a sweep and every command, however they end, leave
their callers the identifiers that they had. -/
theorem bindings_undone {t : Tipping} {s : Sweeper} (ht : t.execute.IsBalanced)
    (hs : s.execute.IsBalanced) :
    (∀ (script : Log.Script) (c : Log.Context), ∀ p ∈ script.passages c, p.IsUndone) ∧
      (∀ i minimum except, (Ledger.execute i minimum except).IsBalanced) ∧
      (∀ id, (s.settleOne id).IsBalanced) ∧ s.sweep.IsBalanced ∧
      (∀ author channel recipient amount,
        (t.tipAccount author channel recipient amount).IsBalanced) ∧
      (∀ author channel role amount, (t.tipRole author channel role amount).IsBalanced) ∧
      ∀ author channel token amount duration unit,
        (t.startDrop author channel token amount duration unit).IsBalanced := by
  refine ⟨Log.Script.passages_undone, fun _ _ _ => balanced_execute, fun _ => ?_, ?_,
    fun _ _ _ _ => ?_, fun _ _ _ _ => ?_, fun _ _ _ _ _ _ => ?_⟩
  · exact Sweeper.balanced_settleOne hs
  · exact Sweeper.balanced_sweep hs
  · exact Tipping.balanced_tipAccount ht
  · exact Tipping.balanced_tipRole ht
  · exact Tipping.balanced_startDrop

namespace Sample

/-- A runner that is alone at its desk, before a platform that keeps silent. -/
def alone {β : Type} : Effect β → StateM Desk β
  | .chore todo => todo.run
  | .call .. => fun desk => (.error (.timeout ""), desk)
  | .mention account => fun desk => (.ok account, desk)
  | .wallet => fun desk => (.error (.notReady .wallet), desk)
  | .stopping => fun desk => (false, desk)

theorem turns_alone {β : Type} (e : Effect β) (desk : Desk) :
    e.Turns desk.context (alone e desk).1 (alone e desk).2.context := by
  cases e with
  | chore todo => exact ⟨desk, _, rfl, rfl, rfl⟩
  | call | mention | wallet | stopping => rfl

/-- Binds an account twice, one block inside the other, clears everything and fails inside. -/
def nested : Log.Script :=
  .bind [("account_id", some "alice"), ("event_id", none)]
    (.set [("request_id", some "first")] <|
      .attempt
        (.bind [("account_id", some "bob"), ("request_id", some "second")]
          (.clear (.fail (.store .unreachable))) .done)
        fun _ => .done)
    .done

/-- A desk at which a caller has bound a request. -/
def called : Desk := { desk 0 with context := Log.Context.empty.put .request (some "outer") }

end Sample

open Sample in
/-- Both blocks of a script are undone, also the one that fails; and a tip that is refused leaves
the request of its caller. -/
theorem Sample.nested_undone :
    (∀ p ∈ nested.passages .empty, p.IsUndone) ∧ (nested.passages .empty).length = 2 ∧
      (nested.run .empty).2.toList = [("request_id", "first")] ∧
      ((tipping.tipAccount "alice" "general" "bob" ⟨3⟩).run alone called).2.context =
        called.context := by
  have hundone := bindings_undone (t := tipping) (s := sweeper) (fun _ _ _ => balanced_execute)
    fun _ _ _ => balanced_execute
  obtain ⟨hscripts, -, -, -, htip, -⟩ := hundone
  refine ⟨hscripts nested .empty, rfl, rfl, ?_⟩
  exact htip "alice" "general" "bob" ⟨3⟩ (turns_run Desk.context alone turns_alone _ called)

end TipJar
