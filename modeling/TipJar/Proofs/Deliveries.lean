import TipJar.Proofs.Commands

/-! Who is told.

Telling people is a fixed list of messages: one for everybody in the channel, then
one for each recipient who wants to be told directly. Which of them go through is up
to the platform, and it makes no difference to the list: a message that fails is
counted, and the next one is sent all the same. So what is sent and what is reported
can both be written down beforehand, given who has chosen what and how the platform
answers. -/
namespace TipJar
open Ledger

/-- The platform answers every call in a way of its own, and has a markup for every account. -/
structure World.Answers (W : World) (answer : (c : Call) → Except CallFault c.Reply)
    (markup : String → String) : Prop where
  calls : ∀ c limit b, W _ (.call c limit) b → b = answer c
  mentions : ∀ account b, W _ (.mention account) b → b = .ok (markup account)

/-! ### Programs that only speak -/

namespace Program
variable {α β : Type} {W : World} {others : State → State → Prop}

/-- Whether a program makes some calls, one after the other, and returns something, and nothing else
is seen of it. -/
def Speaks (p : Program α) (W : World) (others : State → State → Prop) (calls : List Call)
    (a : α) : Prop :=
  ∀ ⦃σ : State⦄ ⦃acts : List Act⦄ ⦃r : Checked α⦄ ⦃τ : State⦄,
    p.Goes W others σ acts r τ → acts = calls.map .called ∧ r = .ok a

theorem speaks_pure (a : α) : (pure a : Program α).Speaks W others [] a := by
  intro σ acts r τ goes
  obtain ⟨rfl, rfl, -⟩ := goes
  exact ⟨rfl, rfl⟩

theorem speaks_check {x : Checked α} {a : α} (h : x = .ok a) :
    (check x).Speaks W others [] a := by
  subst h
  exact speaks_pure a

theorem Speaks.bind {p : Program α} {f : α → Program β} {calls more : List Call} {a : α} {b : β}
    (hp : p.Speaks W others calls a) (hf : (f a).Speaks W others more b) :
    (p >>= f).Speaks W others (calls ++ more) b := by
  intro σ acts r τ goes
  rcases goes_bind.mp goes with ⟨why, hfailed, -⟩ | ⟨_, μ, first, second, hdone, hrest, rfl⟩
  · obtain ⟨-, hnever⟩ := hp hfailed
    cases hnever
  · obtain ⟨rfl, heq⟩ := hp hdone
    obtain rfl := Except.ok.inj heq
    obtain ⟨rfl, rfl⟩ := hf hrest
    exact ⟨(List.map_append ..).symm, rfl⟩

theorem Speaks.returning {p : Program α} {calls : List Call} {a : α}
    (hp : p.Speaks W others calls a) (f : α → β) :
    (p >>= fun a => pure (f a)).Speaks W others calls (f a) := by
  have h := hp.bind (f := fun a => pure (f a)) (speaks_pure (f a))
  rw [List.append_nil] at h
  exact h

/-- A program that only speaks leaves the tables to others. -/
theorem Speaks.unchanged {p : Program α} {calls : List Call} {a : α} {σ τ : State}
    {acts : List Act} {r : Checked α} (h : p.Speaks W Eq calls a)
    (goes : p.Goes W Eq σ acts r τ) : τ.store = σ.store := by
  refine goes.unchanged ?_
  rw [(h goes).1, Act.units_map_called]
  exact List.forall_mem_nil _

theorem speaks_note {level : Log.Level} {part message : String} {fields : List (String × Value)} :
    (note level part message fields).Speaks W others [] ⟨⟩ := by
  intro σ acts r τ goes
  obtain ⟨_, _, -, -, rfl, rfl, -⟩ := (goes_perform rfl).mp goes
  exact ⟨rfl, rfl⟩

section Answered
variable {answer : (c : Call) → Except CallFault c.Reply} {markup : String → String}
  (answers : W.Answers answer markup)
include answers

theorem speaks_tryCall {c : Call} {limit : Option Binary64} :
    (tryCall c limit).Speaks W others [c] (answer c) := by
  intro σ acts r τ goes
  obtain ⟨_, b, _, _, -, hworld, rfl, ⟨rfl, rfl, -⟩, rfl⟩ := goes
  obtain rfl := answers.calls c limit b hworld
  exact ⟨rfl, rfl⟩

theorem speaks_mention {account : String} :
    (mention account).Speaks W others [] (markup account) := by
  intro σ acts r τ goes
  obtain ⟨_, b, -, hworld, rfl, rfl, -⟩ := (goes_perform rfl).mp goes
  obtain rfl := answers.mentions account b hworld
  exact ⟨rfl, rfl⟩

end Answered

end Program

/-! ### The messages -/

/-- A message about a transfer: how reports name whom it is for and how it is sent, and the call
that sends it. -/
structure Notice where
  target : String
  channel : String
  call : Call

/-- What is reported of a message, if it does not go through. -/
def Notice.failure (answer : (c : Call) → Except CallFault c.Reply) (m : Notice) :
    Option Undelivered :=
  match answer m.call with
  | .ok _ => none
  | .error why => some ⟨m.target, m.channel, Notifier.reasonOf why⟩

namespace Preference

/-- Whether a recipient is mentioned when it is the only one. -/
def IsMentioned (chosen : Option Preference) : Prop :=
  chosen = some .all ∨ chosen = some .channelOnly ∨ chosen = none

/-- Whether a recipient is told directly. -/
def IsDirect (chosen : Option Preference) : Prop :=
  chosen = some .all ∨ chosen = some .dmOnly

instance (chosen : Option Preference) : Decidable (IsMentioned chosen) :=
  inferInstanceAs (Decidable (_ ∨ _ ∨ _))

instance (chosen : Option Preference) : Decidable (IsDirect chosen) :=
  inferInstanceAs (Decidable (_ ∨ _))

theorem mention_of (chosen : Option Preference) :
    (Delivery.of chosen).mention = true ↔ IsMentioned chosen := by
  rcases chosen with _ | (_ | _ | _ | _) <;> decide

theorem direct_of (chosen : Option Preference) :
    (Delivery.of chosen).direct = true ↔ IsDirect chosen := by
  rcases chosen with _ | (_ | _ | _ | _) <;> decide

end Preference

/-- What is known when a transfer is announced: how the platform answers, and what each recipient
has chosen. -/
structure Audience where
  answer : (c : Call) → Except CallFault c.Reply
  markup : String → String
  chosen : String → Option Preference

namespace Audience
variable (a : Audience)

/-- The plain name of an account, or what stands for it. -/
def plainName (account : String) : String :=
  match a.answer (.name account) with
  | .ok name => name
  | .error _ => account

/-- How the only recipient is named. -/
def nameFor (recipient : String) : String :=
  if Preference.IsMentioned (a.chosen recipient) then a.markup recipient
  else "\x60" ++ a.plainName recipient ++ "\x60"

/-- The lookups that naming the only recipient takes. -/
def lookups (r : Transfer.Receipt) : List Call :=
  match r.destinations with
  | [recipient] => if Preference.IsMentioned (a.chosen recipient) then [] else [.name recipient]
  | _ => []

/-- The message for everybody. -/
def announcement (r : Transfer.Receipt) (channel total : String) : Notice :=
  let text := match r.destinations with
    | [recipient] =>
      a.markup r.source ++ " just tipped " ++ a.nameFor recipient ++ " " ++ total ++ "!"
    | destinations =>
      a.markup r.source ++ " just tipped " ++ total ++ " to " ++ toString destinations.length ++
        " users!"
  ⟨channel, Notifier.publicChannel, .post channel text⟩

/-- The message for one recipient. -/
def direct (r : Transfer.Receipt) (share recipient : String) : Notice :=
  ⟨recipient, Notifier.directChannel,
    .tell recipient ("You just got tipped " ++ share ++ " from " ++ a.markup r.source ++ "!")⟩

/-- Those of some recipients who are told directly. -/
def told (recipients : List String) : List String :=
  recipients.filter fun name => Preference.IsDirect (a.chosen name)

/-- All messages in the order in which they are sent. -/
def notices (r : Transfer.Receipt) (channel total share : String) : List Notice :=
  a.announcement r channel total :: (a.told r.destinations).map (a.direct r share)

variable {a} {r : Transfer.Receipt} {channel total recipient : String} {rest : List String}

theorem told_of_direct (wants : Preference.IsDirect (a.chosen recipient)) :
    a.told (recipient :: rest) = recipient :: a.told rest :=
  List.filter_cons_of_pos (p := fun name => decide (Preference.IsDirect (a.chosen name)))
    (decide_eq_true wants)

theorem told_of_not_direct (wants : ¬Preference.IsDirect (a.chosen recipient)) :
    a.told (recipient :: rest) = a.told rest :=
  List.filter_cons_of_neg (p := fun name => decide (Preference.IsDirect (a.chosen name)))
    (mt of_decide_eq_true wants)

theorem announcement_one (alone : r.destinations = [recipient]) :
    (a.announcement r channel total).call = .post channel
      (a.markup r.source ++ " just tipped " ++ a.nameFor recipient ++ " " ++ total ++ "!") := by
  simp only [announcement, alone]

theorem announcement_many (many : ∀ recipient, r.destinations ≠ [recipient]) :
    (a.announcement r channel total).call = .post channel
      (a.markup r.source ++ " just tipped " ++ total ++ " to " ++
        toString r.destinations.length ++ " users!") := by
  unfold announcement
  dsimp only
  split
  · next recipient alone => exact absurd alone (many recipient)
  · rfl

theorem lookups_many (many : ∀ recipient, r.destinations ≠ [recipient]) : a.lookups r = [] := by
  unfold lookups
  split
  · next recipient alone => exact absurd alone (many recipient)
  · rfl

end Audience

namespace Notifier
variable {n : Notifier} {W : World} {others : State → State → Prop} {a : Audience}
  {r : Transfer.Receipt} {channel total share : String}

/-! ### Sending them -/

section Sending
variable (answers : W.Answers a.answer a.markup)
include answers

theorem speaks_send {target kind : String} {c : Call} :
    ∃ result : Except Undelivered c.Reply, (n.send target kind c).Speaks W others [c] result ∧
      failureOf result = Notice.failure a.answer ⟨target, kind, c⟩ := by
  have hcall : (Program.tryCall c (some n.limit)).Speaks W others [c] (a.answer c) :=
    Program.speaks_tryCall answers
  unfold send Notice.failure
  cases hanswer : a.answer c with
  | ok reply =>
    rw [hanswer] at hcall
    exact ⟨.ok reply, hcall.bind (Program.speaks_pure _), rfl⟩
  | error why =>
    rw [hanswer] at hcall
    exact ⟨.error ⟨target, kind, reasonOf why⟩,
      hcall.bind (Program.speaks_note.bind (Program.speaks_pure _)), rfl⟩

/-- The announcement is posted, with the text that it has. -/
theorem speaks_post {text : String} (others : State → State → Prop)
    (written : (a.announcement r channel total).call = .post channel text) :
    ∃ posted, (n.post channel text).Speaks W others [(a.announcement r channel total).call] posted ∧
      failureOf posted = (a.announcement r channel total).failure a.answer := by
  have hnotice : a.announcement r channel total = ⟨channel, publicChannel, .post channel text⟩ := by
    rw [← written]
    rfl
  rw [hnotice]
  exact speaks_send (c := .post channel text) answers

theorem speaks_tell (hshare : r.share.format n.ticker = .ok share) {recipient : String} :
    (n.tell recipient (a.markup r.source) r.share).Speaks W others
      [(a.direct r share recipient).call] ((a.direct r share recipient).failure a.answer) := by
  obtain ⟨result, hsend, hfailure⟩ : ∃ result : Except Undelivered
      (a.direct r share recipient).call.Reply,
      (n.send recipient directChannel (a.direct r share recipient).call).Speaks W others
          [(a.direct r share recipient).call] result ∧
        failureOf result = (a.direct r share recipient).failure a.answer := speaks_send answers
  rw [show (a.direct r share recipient).failure a.answer = failureOf result from hfailure.symm]
  exact (Program.speaks_check (congrArg Checked.ofArithmetic hshare)).bind
    (hsend.returning failureOf)

/-- One after the other those who want to be told are told, whatever became of the others. -/
theorem speaks_tellEach (hshare : r.share.format n.ticker = .ok share) (recipients : List String) :
    (n.tellEach (a.markup r.source) r.share (fun name => .ok (a.chosen name)) recipients).Speaks W
      others (((a.told recipients).map (a.direct r share)).map (·.call))
      (((a.told recipients).map (a.direct r share)).map (·.failure a.answer)) := by
  induction recipients with
  | nil => exact Program.speaks_pure _
  | cons recipient rest ih =>
    refine (Program.speaks_check rfl).bind ?_
    dsimp only
    by_cases wants : Preference.IsDirect (a.chosen recipient)
    · rw [if_pos ((Preference.direct_of _).mpr wants), Audience.told_of_direct wants]
      exact (speaks_tell answers hshare).bind
        (ih.returning ((a.direct r share recipient).failure a.answer :: ·))
    · rw [if_neg (mt (Preference.direct_of _).mp wants), Audience.told_of_not_direct wants]
      exact ih

theorem speaks_nameOf {account : String} :
    (n.nameOf account).Speaks W others [.name account] (a.plainName account) := by
  unfold nameOf
  rw [← List.append_nil [Call.name account]]
  refine (Program.speaks_tryCall answers).bind ?_
  unfold Audience.plainName
  cases a.answer (.name account) with
  | ok name => exact Program.speaks_pure name
  | error why => exact Program.speaks_pure account

/-- The only recipient is mentioned or named, as it has chosen. -/
theorem speaks_targetOf {recipient : String} (alone : r.destinations = [recipient]) :
    (n.targetOf recipient (Delivery.of (a.chosen recipient))).Speaks W others (a.lookups r)
      (a.nameFor recipient) := by
  unfold targetOf Audience.lookups Audience.nameFor
  rw [alone]
  dsimp only
  by_cases mentioned : Preference.IsMentioned (a.chosen recipient)
  · rw [if_pos ((Preference.mention_of _).mpr mentioned), if_pos mentioned, if_pos mentioned]
    exact Program.speaks_mention answers
  · rw [if_neg (mt (Preference.mention_of _).mp mentioned), if_neg mentioned, if_neg mentioned]
    exact (speaks_nameOf answers).returning fun name => "\x60" ++ name ++ "\x60"

section Texts
variable (htotal : r.moved.format n.ticker = .ok total)
  (hshare : r.share.format n.ticker = .ok share)
include htotal hshare

/-- The only recipient: the announcement, and a direct message if it is wanted. -/
theorem speaks_notifyOne {recipient : String} (alone : r.destinations = [recipient]) :
    (n.notifyOne r channel recipient fun name => .ok (a.chosen name)).Speaks W others
      (a.lookups r ++ (a.notices r channel total share).map (·.call))
      ((a.notices r channel total share).map (·.failure a.answer)) := by
  obtain ⟨posted, hpost, hfailure⟩ := speaks_post (n := n) answers others
    (Audience.announcement_one alone)
  unfold notifyOne Audience.notices
  rw [alone]
  refine (Program.speaks_check rfl).bind ?_
  refine (Program.speaks_check (congrArg Checked.ofArithmetic htotal)).bind ?_
  refine (Program.speaks_mention answers).bind ((speaks_targetOf answers alone).bind ?_)
  refine hpost.bind ?_
  rw [List.map_cons, ← hfailure]
  by_cases wants : Preference.IsDirect (a.chosen recipient)
  · rw [if_pos ((Preference.direct_of _).mpr wants), Audience.told_of_direct wants]
    exact (speaks_tell answers hshare).returning fun told => [failureOf posted, told]
  · rw [if_neg (mt (Preference.direct_of _).mp wants), Audience.told_of_not_direct wants]
    exact Program.speaks_pure _

/-- Several recipients: the announcement, and a direct message for each who wants one. -/
theorem speaks_notifyMany (many : ∀ recipient, r.destinations ≠ [recipient]) :
    (n.notifyMany r channel fun name => .ok (a.chosen name)).Speaks W others
      (a.lookups r ++ (a.notices r channel total share).map (·.call))
      ((a.notices r channel total share).map (·.failure a.answer)) := by
  obtain ⟨posted, hpost, hfailure⟩ := speaks_post (n := n) answers others
    (Audience.announcement_many many)
  unfold notifyMany Audience.notices
  rw [Audience.lookups_many many, List.map_cons, List.map_cons, ← hfailure]
  refine (Program.speaks_mention answers).bind ?_
  refine (Program.speaks_check (congrArg Checked.ofArithmetic htotal)).bind ?_
  refine hpost.bind ?_
  exact (speaks_tellEach answers hshare r.destinations).returning (failureOf posted :: ·)

/-- Whatever becomes of the messages, a report is made of all of them. -/
theorem speaks_notify :
    (n.notify r channel (some fun name => .ok (a.chosen name))).Speaks W others
      (a.lookups r ++ (a.notices r channel total share).map (·.call))
      (.ofSends r.event ((a.notices r channel total share).map (·.failure a.answer))) := by
  have hreport (sends : List (Option Undelivered)) : (do
      let report := DeliveryReport.ofSends r.event sends
      Program.note .info part "settlement_notified"
        [("event_id", .text r.event.text), ("attempted", .nat report.attempted),
         ("delivered", .nat report.delivered), ("failed", .nat report.failures.length)]
      return report : Program DeliveryReport).Speaks W others [] (.ofSends r.event sends) :=
    Program.speaks_note.bind (Program.speaks_pure _)
  rw [← List.append_nil (a.lookups r ++ _)]
  unfold notify
  refine (Program.speaks_pure _).bind ?_
  dsimp only
  split
  · next recipient alone =>
    exact (speaks_notifyOne answers htotal hshare alone).bind (hreport _)
  · next many => exact (speaks_notifyMany answers htotal hshare many).bind (hreport _)

end Texts

end Sending

/-! ### Finding out who wants what -/

/-- How it is found out what the recipients have chosen, the units of work that it takes, and what
they have chosen. -/
inductive Learns (n : Notifier) (W : World) (recipients : List String) :
    Option (String → Option Preference) → List Kept → (String → Option Preference) → Prop
  | given {chosen : String → Option Preference} : Learns n W recipients (some chosen) [] chosen
  | stored {k : Kept} {chosen : String → Option Preference} (remembers : n.remembers = true)
      (asks : k.Asks) (found : ∀ name ∈ recipients,
        (k.before.store.settings name).1 = (chosen name).map .known) :
      Learns n W recipients none [k] chosen
  /-- Nobody has chosen, as far as is known. -/
  | unset (unread : n.remembers = false ∨ W.Loses "load_notification_preferences") :
      Learns n W recipients none [] fun _ => none

theorem Learns.asks {recipients : List String} {given : Option (String → Option Preference)}
    {units : List Kept} {chosen : String → Option Preference}
    (h : n.Learns W recipients given units chosen) : ∀ k ∈ units, k.Asks := by
  cases h with
  | given | unset => exact List.forall_mem_nil _
  | stored _ asks => exact List.forall_mem_singleton.mpr asks

/-- Preferences that are given are not looked up. -/
theorem Learns.of_given {recipients : List String} {given chosen : String → Option Preference}
    {units : List Kept} (h : n.Learns W recipients (some given) units chosen) :
    units = [] ∧ chosen = given := by
  cases h
  exact ⟨rfl, rfl⟩

theorem settings_of_read {account : Account} {chosen : Option Preference}
    (h : account.read = .ok chosen) : account.preference = chosen.map .known := by
  unfold Account.read at h
  cases hstored : account.preference with
  | none =>
    rw [hstored] at h
    rw [← Except.ok.inj h]
    rfl
  | some p =>
    rw [hstored] at h
    cases p with
    | known preference =>
      rw [← Except.ok.inj h]
      rfl
    | other text => cases h

/-- Where each name is read along with what is found for it, that is what is looked up later. -/
theorem find?_of_mapM {read : String → Checked (String × Option Preference)}
    {P : String → Option Preference → Prop}
    (reads : ∀ name pair, read name = .ok pair → pair.1 = name ∧ P name pair.2)
    {names : List String} {found : List (String × Option Preference)}
    (h : names.mapM read = .ok found) :
    ∀ name ∈ names, P name ((found.find? (·.1 == name)).bind (·.2)) := by
  induction names generalizing found with
  | nil => exact List.forall_mem_nil _
  | cons head rest ih =>
    rw [List.mapM_cons] at h
    cases hhead : read head with
    | error why =>
      rw [hhead] at h
      cases h
    | ok pair =>
      cases hrest : rest.mapM read with
      | error why =>
        rw [hhead, hrest] at h
        cases h
      | ok more =>
        rw [hhead, hrest] at h
        obtain rfl := Except.ok.inj h
        obtain ⟨hname, hpair⟩ := reads head pair hhead
        intro name hmem
        by_cases hsame : head = name
        · rw [List.find?_cons_of_pos (by simpa [hname] using hsame), ← hsame]
          exact hpair
        · rw [List.find?_cons_of_neg (by simpa [hname] using hsame)]
          exact ih hrest name ((List.mem_cons.mp hmem).resolve_left (Ne.symm hsame))

/-- What preferences are found for recipients are the ones that their accounts have stored. -/
theorem found_of_keeps {recipients : List String} {σ τ : State}
    {found : List (String × Option Preference)}
    (h : σ.Keeps (preferencesOf recipients) found τ) :
    ∀ name ∈ recipients, (σ.store.settings name).1 =
      ((found.find? (·.1 == name)).bind (·.2)).map .known := by
  obtain ⟨_, desk, after, -, hgives, -, -⟩ := h
  intro name hname
  have hwanted := mem_distinct.mpr hname
  unfold preferencesOf at hgives
  split at hgives
  · next hnone =>
    rw [hnone] at hwanted
    exact absurd hwanted List.not_mem_nil
  · obtain ⟨s, _, htables, hread⟩ := Work.gives_bind.mp hgives
    obtain ⟨hs, rfl⟩ := Work.gives_tables.mp htables
    obtain rfl := (σ.holds_begun desk).unique hs
    obtain ⟨hread, -⟩ := Work.gives_check.mp hread
    refine find?_of_mapM (P := fun name chosen => (σ.store.settings name).1 = chosen.map .known)
      (fun name pair hpair => ?_) hread name hwanted
    unfold Store.settings
    cases haccount : σ.store.account? name with
    | none =>
      rw [haccount] at hpair
      rw [← Except.ok.inj hpair]
      exact ⟨rfl, rfl⟩
    | some account =>
      rw [haccount] at hpair
      dsimp only at hpair
      cases hchosen : account.read with
      | error why =>
        rw [hchosen] at hpair
        cases hpair
      | ok chosen =>
        rw [hchosen] at hpair
        rw [← Except.ok.inj hpair]
        exact ⟨rfl, settings_of_read hchosen⟩

/-- Preferences are read in one unit of work, or nobody has chosen. -/
theorem preferencesFor_learns {recipients : List String} {σ τ : State} {acts : List Act}
    {result : Checked Preferences} (h : σ.Reached)
    (goes : (n.preferencesFor recipients).Goes W State.Run σ acts result τ) :
    ∃ units chosen, n.Learns W recipients none units chosen ∧ acts = units.map .kept ∧
      result = .ok fun name => .ok (chosen name) := by
  unfold preferencesFor at goes
  cases hremembers : n.remembers with
  | false =>
    rw [hremembers] at goes
    obtain ⟨rfl, rfl, -⟩ := goes
    exact ⟨[], _, .unset (.inl hremembers), rfl, rfl⟩
  | true =>
    rw [hremembers] at goes
    obtain ⟨ready, before, ⟨found, μ, rest, hkept, ⟨rfl, rfl, -⟩, rfl⟩ |
      ⟨why, hworld, hundone, hrest⟩⟩ := Program.Goes.tried goes
    · have hasks : Kept.Asks ⟨"load_notification_preferences", ready, μ⟩ :=
        hkept.asks (reads_preferencesOf recipients)
      exact ⟨[_], _, .stored hremembers hasks (found_of_keeps hkept), rfl, rfl⟩
    · have hlegible := (h.run before).legible
      rcases hundone.faults (P := fun _ => False) (preferencesOf_failsOnly hlegible recipients) with
        ⟨cause, rfl⟩ | ⟨hnever, -⟩
      · obtain ⟨_, _, -, -, rfl, rfl, -⟩ := (Program.goes_asked rfl).mp hrest
        exact ⟨[], _, .unset (.inr ⟨_, _, cause, hworld⟩), rfl, rfl⟩
      · exact hnever.elim

/-! ### What is sent and what is reported -/

/-- Whether a transfer is announced to everybody once and to each recipient as it has chosen, and
reported on. -/
structure FansOut (n : Notifier) (a : Audience) (r : Transfer.Receipt)
    (channel total share : String) (acts : List Act) (report : DeliveryReport) : Prop where
  totalWritten : r.moved.format n.ticker = .ok total
  shareWritten : r.share.format n.ticker = .ok share
  calls : Act.calls acts = a.lookups r ++ (a.notices r channel total share).map (·.call)
  unchanged : ∀ k ∈ Act.units acts, k.Asks
  event : report.event = r.event
  attempted : report.attempted = 1 + (a.told r.destinations).length
  counted : report.attempted = report.delivered + report.failures.length
  failures : report.failures = (a.notices r channel total share).filterMap (·.failure a.answer)

theorem countP_isNone_add_filterMap (sends : List (Option Undelivered)) :
    sends.countP (·.isNone) + (sends.filterMap id).length = sends.length := by
  induction sends with
  | nil => rfl
  | cons send rest ih =>
    cases send with
    | none =>
      rw [List.countP_cons_of_pos rfl, List.filterMap_cons_none rfl, List.length_cons, ← ih]
      omega
    | some failure =>
      rw [List.countP_cons_of_neg Bool.false_ne_true, List.filterMap_cons_some (f := id) rfl,
        List.length_cons, List.length_cons, ← ih]
      omega

/-- What is read beforehand makes no difference to the messages. -/
theorem FansOut.after {acts : List Act} {report : DeliveryReport} {units : List Kept}
    (h : n.FansOut a r channel total share acts report) (asks : ∀ k ∈ units, k.Asks) :
    n.FansOut a r channel total share (units.map .kept ++ acts) report where
  totalWritten := h.totalWritten
  shareWritten := h.shareWritten
  calls := by
    rw [Act.calls_append, Act.calls_map_kept, h.calls]
    rfl
  unchanged := by
    rw [Act.units_append, Act.units_map_kept]
    exact List.forall_mem_append.mpr ⟨asks, h.unchanged⟩
  event := h.event
  attempted := h.attempted
  counted := h.counted
  failures := h.failures

/-- With the preferences at hand, everybody is told. -/
theorem notify_given {σ τ : State} {acts : List Act} {result : Checked DeliveryReport}
    (answers : W.Answers a.answer a.markup) (fits : r.Fits)
    (goes : (n.notify r channel (some fun name => .ok (a.chosen name))).Goes W others σ acts result
      τ) :
    ∃ total share report, result = .ok report ∧ Act.units acts = [] ∧
      n.FansOut a r channel total share acts report := by
  obtain ⟨total, htotal⟩ := Amount.format_ok fits.1 n.ticker
  obtain ⟨share, hshare⟩ := Amount.format_ok fits.2 n.ticker
  obtain ⟨rfl, rfl⟩ := speaks_notify answers htotal hshare goes
  refine ⟨total, share, _, rfl, Act.units_map_called _, htotal, hshare, Act.calls_map_called _, ?_,
    rfl, ?_, ?_, ?_⟩
  · rw [Act.units_map_called]
    exact List.forall_mem_nil _
  · show ((a.notices r channel total share).map (·.failure a.answer)).length = _
    rw [List.length_map, Audience.notices, List.length_cons, List.length_map, Nat.add_comm]
  · exact (countP_isNone_add_filterMap _).symm
  · exact List.filterMap_map ..

/-- **Everybody is told, once and in turn.** However many messages fail, a transfer is announced in
the channel once, and then each recipient who wants to be told directly is told, in the order of the
transfer; the only recipient is mentioned unless it has chosen otherwise. The report counts all of
them and has every failure, and nothing is changed. -/
theorem notify_fans_out {answer : (c : Call) → Except CallFault c.Reply}
    {markup : String → String} {given : Option (String → Option Preference)} {σ τ : State}
    {acts : List Act} {result : Checked DeliveryReport} (answers : W.Answers answer markup)
    (h : σ.Reachable) (fits : r.Fits) (different : r.destinations.Nodup)
    (goes : (n.notify r channel (given.map fun chosen name => .ok (chosen name))).Goes W State.Run σ
      acts result τ) :
    ∃ chosen total share report, n.Learns W r.destinations given (Act.units acts) chosen ∧
      (Audience.told ⟨answer, markup, chosen⟩ r.destinations).Nodup ∧ result = .ok report ∧
      n.FansOut ⟨answer, markup, chosen⟩ r channel total share acts report := by
  cases given with
  | some chosen =>
    obtain ⟨total, share, report, hresult, hunits, fans⟩ :=
      notify_given (a := ⟨answer, markup, chosen⟩) answers fits goes
    rw [hunits]
    exact ⟨chosen, total, share, report, .given, different.filter _, hresult, fans⟩
  | none =>
    rcases Program.goes_bind.mp goes with
      ⟨why, hlearned, -⟩ | ⟨preferences, μ, first, second, hlearned, hrest, rfl⟩
    · obtain ⟨_, _, -, -, hnever⟩ := preferencesFor_learns h.reached hlearned
      cases hnever
    · obtain ⟨units, chosen, learns, rfl, heq⟩ := preferencesFor_learns h.reached hlearned
      obtain rfl := Except.ok.inj heq
      obtain ⟨total, share, report, hresult, hunits, fans⟩ :=
        notify_given (a := ⟨answer, markup, chosen⟩) answers fits hrest
      rw [Act.units_append, Act.units_map_kept, hunits, List.append_nil]
      exact ⟨chosen, total, share, report, learns, different.filter _, hresult,
        fans.after learns.asks⟩

end Notifier

/-! ### Two recipients, one of whom does not hear

Alice's drop of six is shared by Bob and Carol, who both want to be told directly. The
message for Bob takes too long. -/

namespace World
variable (answer : (c : Call) → Except CallFault c.Reply) (markup : String → String)

/-- A world in which the platform answers as told. Everything else may happen. -/
def fixed : World := fun _ e b =>
  match e, b with
  | .call c _, reply => reply = answer c
  | .mention account, reply => reply = .ok (markup account)
  | _, _ => True

theorem answers_fixed : (fixed answer markup).Answers answer markup :=
  ⟨fun _ _ _ h => h, fun _ _ h => h⟩

theorem answered_fixed (β : Type) (e : Effect β) (σ : State) :
    ∃ b τ, fixed answer markup β e b ∧ e.ComesTo σ b τ := by
  cases e with
  | chore c =>
    cases c with
    | transact operation work =>
      exact ⟨.error (.refused (.unsaved operation .unreachable)), σ, trivial, rfl, .inr ⟨_, rfl⟩⟩
    | note => exact ⟨⟨⟩, σ, trivial, rfl⟩
    | now => exact ⟨Sample.opening, σ, trivial, rfl⟩
    | freshId => exact ⟨.ofNat 0, σ, trivial, rfl⟩
    | bind => exact ⟨.empty, σ, trivial, rfl⟩
    | restore => exact ⟨⟨⟩, σ, trivial, rfl⟩
  | call c limit => exact ⟨answer c, σ, rfl, rfl⟩
  | mention account => exact ⟨.ok (markup account), σ, rfl, rfl⟩
  | wallet => exact ⟨.error (.beyond .stored), σ, trivial, rfl⟩
  | stopping => exact ⟨false, σ, trivial, rfl⟩

end World

namespace Sample

def sharedIntent : Transfer.Intent := ⟨"alice", guests, ⟨6⟩, .drop⟩

def guestReceipt : Transfer.Receipt := .ofSplit (.ofNat 1) sharedIntent sharedIntent.split deadline

/-- Bob cannot be told. -/
def deafBob : (c : Call) → Except CallFault c.Reply
  | .post .. => .ok "m1"
  | .tell account _ => if account = "bob" then .error (.timeout "") else .ok ⟨⟩
  | .members _ | .reactions .. => .ok []
  | .usable .. => .ok true
  | .react .. => .ok ⟨⟩
  | .name account => .ok account

def wishes : String → Option Preference := fun name =>
  if name = "bob" then some .all else some .dmOnly

end Sample

/-- Carol is told although Bob could not be. -/
theorem Notifier.sample_fans_out : ∃ acts τ report first second,
    (Sample.tipping.notifier.notify Sample.guestReceipt "town"
      (some fun name => .ok (Sample.wishes name))).Goes (.fixed Sample.deafBob id) State.Run
        Sample.paid acts (.ok report) τ ∧
      Act.calls acts = [.post "town" first, .tell "bob" second, .tell "carol" second] ∧
      report.attempted = 3 ∧ report.delivered = 2 ∧
      report.failures = [⟨"bob", "direct", "timeout"⟩] := by
  have still (σ : State) : State.Run σ σ := .refl
  obtain ⟨acts, result, τ, goes⟩ := Program.exists_goes still
    (World.answered_fixed Sample.deafBob id)
    (Sample.tipping.notifier.notify Sample.guestReceipt "town"
      ((some Sample.wishes).map fun chosen name => .ok (chosen name))) Sample.paid
  have hfits : Sample.guestReceipt.Fits := ⟨by decide, by decide⟩
  obtain ⟨chosen, total, share, report, learns, -, rfl, fans⟩ :=
    Notifier.notify_fans_out (World.answers_fixed Sample.deafBob id) Sample.reachable_paid hfits
      (by decide) goes
  obtain ⟨-, rfl⟩ := learns.of_given
  have hattempted : report.attempted = 3 := fans.attempted
  have hfailures : report.failures = [⟨"bob", "direct", "timeout"⟩] := fans.failures
  have hcounted := fans.counted
  rw [hattempted, hfailures] at hcounted
  exact ⟨acts, τ, report, _, _, goes, fans.calls, hattempted, by simpa using hcounted.symm,
    hfailures⟩

end TipJar
