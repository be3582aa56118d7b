import TipJar.Proofs.Acts
import TipJar.Proofs.Journal

/-! A command does one thing or nothing.

A command is several units of work with calls to the platform between them, and no
single undoing covers them all. It is one thing all the same: of its units of work
only the last one before people are told changes anything that counts, and nothing
that comes after it can fail. So a command that fails has moved nothing and told
nobody, one that returns has made exactly one transfer or one drop, and whoever is
told of a tip is told of one that is kept. -/
namespace TipJar
open Ledger

/-! ### Tables that agree -/

namespace Ledger.Store
variable {s t : Store}

/-- What the holder of an account has chosen, and whether the account may start transfers. -/
def settings (s : Store) (name : String) : Option (Stored Preference) × Bool :=
  let account := (s.account? name).getD (.opened name)
  (account.preference, account.blacklisted)

/-- Whether tables agree in every balance, setting, entry and drop. An account that has just been
opened makes no difference. -/
structure Agrees (s t : Store) : Prop where
  balances : ∀ name, t.balance name = s.balance name
  settings : ∀ name, t.settings name = s.settings name
  entries : t.entries = s.entries
  drops : t.drops = s.drops

theorem agrees_of_eq (h : t = s) : s.Agrees t := by
  subst h
  exact ⟨fun _ => rfl, fun _ => rfl, rfl, rfl⟩

theorem agrees_withAccount (s : Store) (name : String) : s.Agrees (s.withAccount name) where
  balances other := s.balance_withAccount name other
  settings other := by
    unfold settings
    rw [account?_withAccount]
    split
    · next same =>
      subst same
      cases s.account? other <;> rfl
    · rfl
  entries := s.entries_withAccount name
  drops := s.drops_withAccount name

end Ledger.Store

/-! ### What is decided -/

/-- Whether an act changes nothing that counts, and is none of the messages in question. -/
def Act.IsIdle (Told : Call → Prop) : Act → Prop
  | kept k => k.before.store.Agrees k.after.store
  | called c => ¬Told c

/-- How a command goes that does one thing or nothing. It fails, and then all its acts were idle; or
it returns what it has done, in one unit of work, and until then nobody was told. -/
inductive Decided {α : Type} (Told : Call → Prop) (Does : Kept → α → Prop) :
    List Act → Checked α → Prop
  | nothing {acts : List Act} {why : Fault} (idle : ∀ act ∈ acts, act.IsIdle Told) :
      Decided Told Does acts (.error why)
  | done {before after : List Act} {k : Kept} {a : α} (does : Does k a)
      (idle : ∀ act ∈ before, act.IsIdle Told)
      (rest : ∀ act ∈ after, act.IsIdle fun _ => False) :
      Decided Told Does (before ++ .kept k :: after) (.ok a)

/-- What is decided by the first act of all. -/
theorem Decided.first {α : Type} {Told : Call → Prop} {Does : Kept → α → Prop} {after : List Act}
    {k : Kept} {a : α} (does : Does k a) (rest : ∀ act ∈ after, act.IsIdle fun _ => False) :
    Decided Told Does (.kept k :: after) (.ok a) := by
  rw [← List.nil_append (Act.kept k :: after)]
  exact .done does (List.forall_mem_nil _) rest

/-- What comes before does not decide anything. -/
theorem Decided.after {α : Type} {Told : Call → Prop} {Does : Kept → α → Prop} {acts : List Act}
    {r : Checked α} {act : Act} (h : Decided Told Does acts r) (idle : act.IsIdle Told) :
    Decided Told Does (act :: acts) r := by
  cases h with
  | nothing others => exact .nothing (List.forall_mem_cons.mpr ⟨idle, others⟩)
  | done does before rest =>
    rw [← List.cons_append]
    exact .done does (List.forall_mem_cons.mpr ⟨idle, before⟩) rest

theorem Decided.imp {α : Type} {Told : Call → Prop} {Does Did : Kept → α → Prop} {acts : List Act}
    {r : Checked α} (h : Decided Told Does acts r) (himp : ∀ k a, Does k a → Did k a) :
    Decided Told Did acts r := by
  cases h with
  | nothing idle => exact .nothing idle
  | done does idle rest => exact .done (himp _ _ does) idle rest

theorem Act.mem_units {k : Kept} {acts : List Act} (h : .kept k ∈ acts) : k ∈ units acts :=
  List.mem_filterMap.mpr ⟨_, h, rfl⟩

namespace Program
variable {α β : Type} {W : World} {Told : Call → Prop}

/-! ### Idle programs -/

/-- Whether all that is ever seen of a program is idle. -/
def IsIdle (p : Program α) (W : World) (Told : Call → Prop) : Prop :=
  ∀ ⦃σ : State⦄ ⦃acts : List Act⦄ ⦃r : Checked α⦄ ⦃τ : State⦄,
    p.Goes W State.Run σ acts r τ → ∀ act ∈ acts, act.IsIdle Told

theorem idle_done (result : Checked α) : (done result).IsIdle W Told := by
  intro σ acts r τ goes
  obtain ⟨rfl, -, -⟩ := goes
  exact List.forall_mem_nil _

theorem IsIdle.bind {p : Program α} {f : α → Program β} (hp : p.IsIdle W Told)
    (hf : ∀ a, (f a).IsIdle W Told) : (p >>= f).IsIdle W Told := by
  intro σ acts r τ goes
  rcases goes_bind.mp goes with ⟨why, hfirst, -⟩ | ⟨a, μ, first, second, hfirst, hnext, rfl⟩
  · exact hp hfirst
  · exact List.forall_mem_append.mpr ⟨hp hfirst, hf a hnext⟩

theorem idle_perform {γ : Type} {e : Effect γ} {next : γ → Program α} (unseen : e.isSeen = false)
    (hnext : ∀ b, (next b).IsIdle W Told) : (perform e next).IsIdle W Told := by
  intro σ acts r τ goes
  obtain ⟨ready, b, -, -, hrest⟩ := (goes_perform unseen).mp goes
  exact hnext b hrest

theorem idle_call {c : Call} {limit : Option Binary64}
    {next : Except CallFault c.Reply → Program α} (untold : ¬Told c)
    (hnext : ∀ b, (next b).IsIdle W Told) : (perform (.call c limit) next).IsIdle W Told := by
  intro σ acts r τ goes
  obtain ⟨ready, b, left, rest, -, -, -, hrest, rfl⟩ := goes
  exact List.forall_mem_cons.mpr ⟨untold, hnext b hrest⟩

theorem idle_transact {operation : String} {work : Work α}
    (agrees : ∀ ⦃σ τ : State⦄ ⦃a : α⦄, σ.Keeps work a τ → σ.store.Agrees τ.store) :
    (transact operation work).IsIdle W Told := by
  intro σ acts r τ goes
  obtain ⟨ready, -, -, ⟨a, -, hkept, rfl⟩ | ⟨why, -, -, rfl, -⟩⟩ := goes_transact.mp goes
  · exact List.forall_mem_singleton.mpr (agrees hkept)
  · exact List.forall_mem_nil _

theorem idle_asks {operation : String} {work : Work α} (reads : work.Reads) :
    (transact operation work).IsIdle W Told :=
  idle_transact fun _ _ _ kept => Store.agrees_of_eq (kept.asks reads)

theorem idle_note {level : Log.Level} {part message : String}
    {fields : List (String × Value)} : (note level part message fields).IsIdle W Told :=
  idle_perform rfl fun _ => idle_done _

/-! ### Programs that decide -/

/-- Whether a program does one thing or nothing, whatever the others do meanwhile. -/
def Decides (p : Program α) (W : World) (Told : Call → Prop) (Does : Kept → α → Prop) : Prop :=
  ∀ ⦃σ : State⦄ ⦃acts : List Act⦄ ⦃r : Checked α⦄ ⦃τ : State⦄, σ.Reached →
    p.Goes W State.Run σ acts r τ → Decided Told Does acts r

variable {Does : Kept → β → Prop}

/-- What is idle may come first. -/
theorem IsIdle.decides {p : Program α} {f : α → Program β} (hp : p.IsIdle W Told)
    (hf : ∀ a, (f a).Decides W Told Does) : (p >>= f).Decides W Told Does := by
  intro σ acts r τ h goes
  rcases goes_bind.mp goes with ⟨why, hfirst, rfl⟩ | ⟨a, μ, first, second, hfirst, hnext, rfl⟩
  · exact .nothing (hp hfirst)
  · have hμ : μ.Reached := h.run (hfirst.plays fun _ _ => id).run
    have hdecided := hf a hμ hnext
    have hidle := hp hfirst
    generalize first = before at hidle
    induction before with
    | nil => exact hdecided
    | cons act before ih =>
      obtain ⟨hact, hbefore⟩ := List.forall_mem_cons.mp hidle
      exact (ih hbefore).after hact

theorem Decides.within {p : Program β} {changes : List (Log.Field × String)}
    (hp : p.Decides W Told Does) : (within changes p).Decides W Told Does := by
  intro σ acts r τ h goes
  obtain ⟨σ', τ', before, hgoes, -⟩ := goes.within
  exact hp (h.run before) hgoes

end Program

/-- What a transfer gives can be announced: its amounts can be written out, and its recipients are
all different. -/
theorem Ledger.Desk.CanPay.announceable {desk : Desk} {s : Store} {i : Transfer.Intent}
    {minimum : Amount} {except : Option Uuid} {utc : Moment}
    (pays : desk.CanPay s i minimum except utc) (event : Uuid) (time : Moment) :
    (Transfer.Receipt.ofSplit event i i.split time).Fits ∧
      (Transfer.Receipt.ofSplit event i i.split time).destinations.Nodup := by
  have hproper := pays.isProper
  have hshare : i.split.share.units ≤ i.split.moved.units :=
    Nat.le_mul_of_pos_right _ (List.length_pos_of_ne_nil hproper.some)
  exact ⟨⟨pays.fits, (Int.ofNat_le.mpr hshare).trans pays.fits⟩, hproper.different⟩

namespace Tipping
variable {t : Tipping} {W : World} {σ τ : State} {acts : List Act} {author channel : String}

/-! ### Tips -/

/-- What a tip does: under a new event it appends its entries, and moves the shares that they tell
of, as the columns of its accounts calculate. -/
structure Pays (i : Transfer.Intent) (k : Kept) (tip : Tip) : Prop where
  receipt : ∃ time, tip.receipt = .ofSplit tip.receipt.event i i.split time
  proper : i.IsProper
  new : ∀ e ∈ k.before.store.entries, e.event ≠ tip.receipt.event
  appended : ∃ rows, k.after.store.entries = k.before.store.entries ++ rows ∧
    ∀ row ∈ rows, row.event = tip.receipt.event
  recorded : k.after.store.Records tip.receipt.event i
  moved : ∀ name, (k.after.store.balance name).units =
    if i.source = name then
      (columnDifference (k.before.store.balance name).units i.split.moved.units).toNat
    else if name ∈ i.destinations then
      columnSum (k.before.store.balance name).units i.split.share.units
    else (k.before.store.balance name).units
  drops : k.after.store.drops = k.before.store.drops

/-- A tip that is kept, with its receipt and a report on those who were told. -/
theorem pays_of_keeps {i : Transfer.Intent} {minimum : Amount} {receipt : Transfer.Receipt}
    (h : σ.Reached) (kept : σ.Keeps (Ledger.execute i minimum none) receipt τ) (operation : String)
    (delivery : DeliveryReport) :
    Pays i ⟨operation, σ, τ⟩ ⟨receipt, delivery⟩ ∧ receipt.Fits := by
  obtain ⟨_, desk, after, -, hgives, hτ, -⟩ := kept
  obtain ⟨s, utc, hs, pays, rfl, rfl⟩ := execute_gives.mp hgives
  obtain rfl := (σ.holds_begun desk).unique hs
  have hstore := hτ.unique (hs.afterTransfer i _)
  have hproper := pays.isProper
  have hnew := Store.event_ne h.journaled pays
  have happended : τ.store.entries = σ.store.entries ++ (σ.begun desk).rowsFor i utc := by
    rw [hstore, Store.entries_transferred]
  have hrecorded : τ.store.Records ((σ.begun desk).ids (σ.begun desk).nextId) i := by
    rw [hstore]
    exact Store.records_transferred h.journaled pays
  have hmoved (name : String) : (τ.store.balance name).units =
      if i.source = name then
        (columnDifference (σ.store.balance name).units i.split.moved.units).toNat
      else if name ∈ i.destinations then
        columnSum (σ.store.balance name).units i.split.share.units
      else (σ.store.balance name).units := by
    rw [hstore, Store.balance_transferred _ _ _ hproper.different hproper.apart]
  have hdrops : τ.store.drops = σ.store.drops := by
    rw [hstore, Store.drops_transferred]
  exact ⟨⟨⟨_, rfl⟩, hproper, hnew, ⟨_, happended, fun row => Store.event_of_mem_rowsFor⟩, hrecorded,
    hmoved, hdrops⟩, (pays.announceable _ _).1⟩

/-- Telling people about a tip ends with the tip and what became of the messages. -/
theorem tells_tip {receipt : Transfer.Receipt} (fits : receipt.Fits) :
    (do
      let delivery ← t.notifier.notify receipt channel none
      return ⟨receipt, delivery⟩ : Program Tip).Tells W fun tip => tip.receipt = receipt :=
  (Notifier.tells_notify fits).bind fun _ _ => Program.tells_done rfl

/-- Once a tip is kept nothing can fail. -/
theorem decides_settle (honest : t.execute = Ledger.execute) (mentions : W.Mentions)
    {i : Transfer.Intent} {minimum : Amount} :
    (t.settle i channel minimum).Decides W Call.IsMessage (Pays i) := by
  intro σ acts r τ h goes
  unfold settle at goes
  rw [honest] at goes
  rcases goes.needed with ⟨why, rfl, -, -, -, rfl⟩ |
    ⟨ready, receipt, μ, rest, others, hkept, hrest, rfl⟩
  · exact .nothing (List.forall_mem_nil _)
  · have hready := h.run others
    obtain ⟨-, hfits⟩ := pays_of_keeps hready hkept "" ⟨receipt.event, 0, 0, []⟩
    obtain ⟨hasks, hheard⟩ := tells_tip hfits (hready.run hkept.run) (hrest.plays fun _ _ => id)
    have hafter : ∀ act ∈ rest, act.IsIdle fun _ => False := by
      intro act hact
      cases act with
      | kept k => exact Store.agrees_of_eq (hasks k (Act.mem_units hact))
      | called c => exact id
    cases r with
    | ok tip =>
      obtain ⟨_, delivery⟩ := tip
      obtain rfl := hheard
      exact .first (pays_of_keeps hready hkept _ delivery).1 hafter
    | error why => exact absurd mentions hheard

section Checks
variable {Told : Call → Prop} {amount minimum : Amount}

theorem idle_requireAllowed : (requireAllowed author).IsIdle W Told :=
  Program.idle_asks (reads_requireAllowed _)

theorem idle_requireMinimum : (requireMinimum amount minimum).IsIdle W Told := by
  unfold requireMinimum
  split <;> exact Program.idle_done _

theorem decides_asRequest {α : Type} {command : Program α} {Does : Kept → α → Prop}
    (h : command.Decides W Told Does) : (asRequest author command).Decides W Told Does :=
  Program.IsIdle.decides (Program.idle_perform rfl fun _ => Program.idle_done _) fun _ => h.within

end Checks

theorem decides_tipAccount (honest : t.execute = Ledger.execute) (mentions : W.Mentions)
    {recipient : String} {amount : Amount} :
    (t.tipAccount author channel recipient amount).Decides W Call.IsMessage
      (Pays ⟨author, [recipient], amount, .direct⟩) :=
  decides_asRequest <| idle_requireAllowed.decides fun _ => idle_requireMinimum.decides fun _ =>
    decides_settle honest mentions

/-- A role is asked for its members before anybody is told anything. -/
theorem decides_tipRole (honest : t.execute = Ledger.execute) (mentions : W.Mentions)
    {role : String} {amount : Amount} :
    (t.tipRole author channel role amount).Decides W Call.IsMessage fun k tip =>
      ∃ members, Pays ⟨author, Drop.eligible members author, amount, .role⟩ k tip := by
  have hmembers : (Program.call (.members role) none).IsIdle W Call.IsMessage :=
    Program.idle_call id fun _ => Program.idle_done _
  refine decides_asRequest <| idle_requireAllowed.decides fun _ =>
    idle_requireMinimum.decides fun _ => hmembers.decides fun members σ acts r τ h goes => ?_
  exact (decides_settle honest mentions h goes).imp fun _ _ pays => ⟨members, pays⟩

/-! ### Drops -/

/-- What starting a drop does: it opens the account of its initiator if there is none, and adds one
pending drop under a new identifier. -/
structure Starts (r : DropRequest) (initiator : String) (k : Kept) (drop : Drop) : Prop where
  pending : drop.has .pending = true
  new : k.before.store.drop? drop.id = none
  shown : drop = r.row drop.id initiator r.openedAt r.deadline
  added : ∃ openedAt deadline, k.after.store =
    (k.before.store.withAccount initiator).withDrop (r.row drop.id initiator openedAt deadline)

theorem starts_of_keeps {r : DropRequest} {initiator : String} {drop : Drop}
    (named : r.initiator.text? = some initiator) (kept : σ.Keeps (createDrop r) drop τ)
    (operation : String) : Starts r initiator ⟨operation, σ, τ⟩ drop := by
  obtain ⟨_, desk, after, -, hgives, hτ, -⟩ := kept
  obtain ⟨s, name, openedAt, deadline, hs, creates, rfl, rfl⟩ := createDrop_gives.mp hgives
  obtain rfl := (σ.holds_begun desk).unique hs
  obtain rfl := Option.some.inj (named.symm.trans (checkName_ok creates.named).1)
  have hstore := hτ.unique (hs.afterCreate r initiator _)
  exact ⟨rfl, creates.fresh, rfl, openedAt, deadline, hstore⟩

/-- A message other than the announcement of a drop. -/
def Tells (channel token : String) : Call → Prop
  | .post place text =>
    ¬(place = channel ∧ ∃ written remaining, text = Drop.announcement written token remaining)
  | .tell .. => True
  | _ => False

section Drops
variable {Told : Call → Prop} {token : String}

theorem idle_checkFunds {name : String} {amount : Amount} :
    (Program.transact "check_reactdrop_funds"
      (checkAvailable (.text name) amount)).IsIdle W Told := by
  refine Program.idle_transact fun σ τ available kept => ?_
  obtain ⟨_, desk, after, -, hgives, hτ, -⟩ := kept
  obtain ⟨s, _, hs, -, -, -, -, rfl⟩ := checkAvailable_gives.mp hgives
  obtain rfl := (σ.holds_begun desk).unique hs
  rw [hτ.unique (hs.keep _)]
  exact Store.agrees_withAccount _ _

theorem idle_announce {text : String} (untold : ¬Told (.post channel text)) :
    (t.announce channel text).IsIdle W Told := by
  have hposted : (t.notifier.post channel text).IsIdle W Told := by
    refine Program.IsIdle.bind (Program.idle_call untold fun _ => Program.idle_done _)
      fun answer => ?_
    cases answer with
    | ok message => exact Program.idle_done _
    | error why => exact Program.idle_note.bind fun _ => Program.idle_done _
  refine hposted.bind fun posted => ?_
  cases posted <;> exact Program.idle_done _

theorem idle_seed {message : String} (untold : ¬Told (.react channel message token)) :
    (seed channel message token).IsIdle W Told := by
  refine Program.IsIdle.bind (Program.idle_call untold fun _ => Program.idle_done _)
    fun answer => ?_
  cases answer with
  | ok => exact Program.idle_done _
  | error => exact Program.idle_note

theorem decides_keep {r : DropRequest} {initiator : String}
    (named : r.initiator.text? = some initiator) :
    (keep r).Decides W Told (Starts r initiator) := by
  intro σ acts result τ h goes
  obtain ⟨ready, others, ⟨drop, left, rest, hkept, ⟨rfl, rfl, rfl⟩, rfl⟩ |
    ⟨why, -, -, hrest⟩⟩ := goes.tried
  · exact .first (starts_of_keeps named hkept _) (List.forall_mem_nil _)
  · dsimp only at hrest
    split at hrest
    · obtain ⟨_, _, -, -, rfl, rfl, rfl⟩ := (Program.goes_asked rfl).mp hrest
      exact .nothing (List.forall_mem_nil _)
    · obtain ⟨rfl, rfl, rfl⟩ := hrest
      exact .nothing (List.forall_mem_nil _)

/-- Only the announcement is posted, and the row of the drop is written last. -/
theorem decides_startDrop {amount : Amount} {duration unit : Value} :
    (t.startDrop author channel token amount duration unit).Decides W (Tells channel token)
      fun k started => ∃ r : DropRequest, r.initiator = .text author ∧ r.token = token ∧
        r.amount = amount ∧ r.channel = channel ∧ Starts r author k started.drop := by
  have husable : (Program.call (.usable channel token) none).IsIdle W (Tells channel token) :=
    Program.idle_call id fun _ => Program.idle_done _
  refine decides_asRequest <| idle_requireAllowed.decides fun _ =>
    idle_requireMinimum.decides fun _ => ?_
  refine Program.IsIdle.decides (Program.idle_perform rfl fun _ => Program.idle_done _)
    fun openedAt => ?_
  refine Program.IsIdle.decides (Program.idle_done _) fun deadline => ?_
  refine husable.decides fun usable => ?_
  cases usable with
  | false =>
    intro σ acts r τ _ goes
    obtain ⟨rfl, rfl, rfl⟩ := goes
    exact .nothing (List.forall_mem_nil _)
  | true =>
    refine idle_checkFunds.decides fun _ => ?_
    refine Program.IsIdle.decides (Program.idle_done _) fun written => ?_
    refine (idle_announce fun told => told ⟨rfl, written, _, rfl⟩).decides fun message => ?_
    refine (idle_seed id).decides fun _ => ?_
    intro σ acts r τ h goes
    rcases Program.goes_bind.mp goes with ⟨why, hkept, rfl⟩ |
      ⟨drop, μ, first, second, hkept, ⟨rfl, rfl, rfl⟩, rfl⟩
    · cases decides_keep rfl h hkept with
      | nothing idle => exact .nothing idle
    · rw [List.append_nil]
      cases decides_keep rfl h hkept with
      | done starts idle rest => exact .done ⟨_, rfl, rfl, rfl, rfl, starts⟩ idle rest

end Drops

/-- A command that fails has moved nothing and told nobody: all its acts were idle. A tip that
returns is one transfer, and a drop that is started is one pending row; whoever is told of a tip is
told after it is kept. What others do between its steps makes no difference, nor what the platform
answers. -/
theorem commands_do_one_thing_or_nothing (h : σ.Reachable) (honest : t.execute = Ledger.execute)
    (mentions : W.Mentions) :
    (∀ author channel recipient amount acts r τ,
      (t.tipAccount author channel recipient amount).Goes W State.Run σ acts r τ →
        Decided Call.IsMessage (Pays ⟨author, [recipient], amount, .direct⟩) acts r) ∧
    (∀ author channel role amount acts r τ,
      (t.tipRole author channel role amount).Goes W State.Run σ acts r τ →
        Decided Call.IsMessage (fun k tip => ∃ members,
          Pays ⟨author, Drop.eligible members author, amount, .role⟩ k tip) acts r) ∧
    ∀ author channel token amount duration unit acts r τ,
      (t.startDrop author channel token amount duration unit).Goes W State.Run σ acts r τ →
        Decided (Tells channel token) (fun k started => ∃ request : DropRequest,
          request.initiator = .text author ∧ request.token = token ∧ request.amount = amount ∧
            request.channel = channel ∧ Starts request author k started.drop) acts r :=
  ⟨fun _ _ _ _ _ _ _ goes => decides_tipAccount honest mentions h.reached goes,
    fun _ _ _ _ _ _ _ goes => decides_tipRole honest mentions h.reached goes,
    fun _ _ _ _ _ _ _ _ _ goes => decides_startDrop h.reached goes⟩

end Tipping

/-! ### A small tip

Alice has ten units and tips Bob three of them; he is told in public. -/

/-- A world that has a markup for every mention. -/
def World.cordial : World := fun _ e b =>
  match e, b with
  | .mention _, .error _ => False
  | _, _ => True

theorem World.mentions_cordial : World.cordial.Mentions := by
  intro account b hworld
  cases b with
  | ok markup => exact ⟨markup, rfl⟩
  | error => exact absurd hworld id

namespace Sample

def tipping : Tipping :=
  { notifier := ⟨"TIP", Notifier.defaultLimit, false⟩, minimumTip := ⟨1⟩, minimumRoleTip := ⟨1⟩,
    minimumDrop := ⟨1⟩, maxHours := 168, execute := Ledger.execute }

def intent : Transfer.Intent := ⟨"alice", ["bob"], ⟨3⟩, .direct⟩

def tipped : State := funded.perform (.tip intent ⟨1⟩) "direct_tip" (desk 1)

def tipReceipt : Transfer.Receipt := .ofSplit (.ofNat 1) intent intent.split deadline

/-- The only message went through. -/
def tipReport : DeliveryReport := ⟨tipReceipt.event, 1, 1, []⟩

theorem keeps_tipped : funded.Keeps (Ledger.execute intent ⟨1⟩ none) tipReceipt tipped := by
  have hbegun := funded.holds_begun (desk 1)
  have hnames : ∀ name ∈ ["alice", "bob"], IsName name := by
    intro name hname
    rcases List.mem_pair.mp hname with rfl | rfl <;> rfl
  have hfresh : (funded.begun (desk 1)).IsFresh funded.store 2 :=
    ⟨by decide +kernel, by decide +kernel⟩
  have pays : (funded.begun (desk 1)).CanPay funded.store intent ⟨1⟩ none deadline :=
    ⟨rfl, hnames, by decide, by decide +kernel, by decide +kernel, ⟨rfl, rfl⟩,
      Store.admits_of_fresh hfresh _⟩
  exact State.keeps_of_perform (.tip intent ⟨1⟩) (nofun) rfl
    (execute_gives.mpr ⟨_, _, hbegun, pays, rfl, rfl⟩) (hbegun.afterTransfer ..) _

theorem keeps_unlisted : funded.Keeps (requireAllowed (.text "alice")) ⟨⟩ funded := by
  have hgives : (requireAllowed (.text "alice")).Gives (funded.begun (desk 1)) ⟨⟩
      (funded.begun (desk 1)) := rfl
  exact State.keeps_of_reads (reads_requireAllowed _) hgives

theorem goes_announced : ∃ text,
    (tipping.notifier.notify tipReceipt "town" none).Goes .cordial State.Run tipped
      [.called (.post "town" text)] (.ok tipReport) tipped := by
  obtain ⟨amount, hamount⟩ :=
    Amount.format_ok (a := tipReceipt.moved) (by decide) tipping.notifier.ticker
  have hmention (name : String) :
      (Program.mention name).Goes .cordial State.Run tipped [] (.ok name) tipped :=
    (Program.goes_perform rfl).mpr ⟨tipped, .ok name, .refl, trivial, rfl, rfl, rfl⟩
  have hpost (text : String) : (tipping.notifier.post "town" text).Goes .cordial State.Run tipped
      [.called (.post "town" text)] (.ok (.ok "m1")) tipped :=
    .andThen (l := []) (Program.goes_call (c := .post "town" text) (b := .ok "m1") .refl trivial)
      ⟨rfl, rfl, rfl⟩
  have hone : (tipping.notifier.notifyOne tipReceipt "town" "bob" Notifier.unset).Goes .cordial
      State.Run tipped
      [.called (.post "town" ("alice" ++ " just tipped " ++ "bob" ++ " " ++ amount ++ "!"))]
      (.ok [none]) tipped := by
    refine .andThen (k := []) ⟨rfl, rfl, rfl⟩ ?_
    refine .andThen (k := []) (a := amount) ⟨rfl, congrArg _ hamount, rfl⟩ ?_
    refine .andThen (hmention "alice") (.andThen (hmention "bob") ?_)
    exact .andThen (l := []) (hpost _) ⟨rfl, rfl, rfl⟩
  refine ⟨_, .andThen (k := []) (a := Notifier.unset) ⟨rfl, rfl, rfl⟩ (.andThen hone ?_)⟩
  exact .andThen (k := []) (l := []) (Program.goes_answered (b := ⟨⟩) rfl .refl trivial)
    ⟨rfl, rfl, rfl⟩

theorem goes_tipped : ∃ text,
    (tipping.tipAccount "alice" "town" "bob" ⟨3⟩).Goes .cordial State.Run funded
      [.kept ⟨"check_blacklist", funded, funded⟩, .kept ⟨"direct_tip", funded, tipped⟩,
        .called (.post "town" text)] (.ok ⟨tipReceipt, tipReport⟩) tipped := by
  have hallowed : (Tipping.requireAllowed "alice").Goes .cordial State.Run funded
      [.kept ⟨"check_blacklist", funded, funded⟩] (.ok ⟨⟩) funded :=
    Program.goes_kept .refl keeps_unlisted trivial
  have hpaid : (Program.transact "direct_tip" (Ledger.execute intent ⟨1⟩ none)).Goes .cordial
      State.Run funded [.kept ⟨"direct_tip", funded, tipped⟩] (.ok tipReceipt) tipped :=
    Program.goes_kept .refl keeps_tipped trivial
  obtain ⟨text, hannounced⟩ := goes_announced
  refine ⟨text, ?_⟩
  refine .andThen (k := []) (a := .ofNat 9) (Program.goes_answered rfl .refl trivial) ?_
  refine Program.Goes.bound ?_ .empty (fun _ => .refl) trivial trivial
  refine .andThen hallowed (.andThen (k := []) ⟨rfl, rfl, rfl⟩ ?_)
  exact .andThen hpaid (.andThen (l := []) hannounced ⟨rfl, rfl, rfl⟩)

end Sample

/-- Alice's tip is one transfer of three, kept before it is announced. -/
theorem Tipping.sample_does_one_thing : ∃ text,
    (Sample.tipping.tipAccount "alice" "town" "bob" ⟨3⟩).Goes .cordial State.Run Sample.funded
      [.kept ⟨"check_blacklist", Sample.funded, Sample.funded⟩,
        .kept ⟨"direct_tip", Sample.funded, Sample.tipped⟩, .called (.post "town" text)]
      (.ok ⟨Sample.tipReceipt, Sample.tipReport⟩) Sample.tipped ∧
    Decided Call.IsMessage (Pays Sample.intent)
      [.kept ⟨"check_blacklist", Sample.funded, Sample.funded⟩,
        .kept ⟨"direct_tip", Sample.funded, Sample.tipped⟩, .called (.post "town" text)]
      (.ok ⟨Sample.tipReceipt, Sample.tipReport⟩) := by
  obtain ⟨text, goes⟩ := Sample.goes_tipped
  have honest : Sample.tipping.execute = Ledger.execute := rfl
  exact ⟨text, goes, (commands_do_one_thing_or_nothing Sample.reachable_funded honest
    World.mentions_cordial).1 _ _ _ _ _ _ _ goes⟩

end TipJar
