import TipJar.Proofs.Coverage
import TipJar.Proofs.Plays
import TipJar.Proofs.Programs
import TipJar.Proofs.Written

/-! Telling people goes well.

A transfer is announced after it is kept, by programs that only ask the tables. Every
message may fail, and that is reported. What could fail beyond messages are the
preferences of recipients, which are always legible since nothing else is ever
stored, and the amounts, which are always short enough to be written out. So where
the platform has a markup for every mention, an announcement ends with a report. -/
namespace TipJar
open Ledger

/-! ### Preferences can be read -/

namespace Ledger

/-- Whether all preferences that are stored can be read. -/
def Store.Legible (s : Store) : Prop := ∀ a ∈ s.accounts, a.IsLegible

theorem Account.isLegible_opened (name : String) : (Account.opened name).IsLegible := ⟨none, rfl⟩

namespace Store
variable {s : Store}

theorem legible_withAccount (h : s.Legible) (name : String) : (s.withAccount name).Legible := by
  unfold withAccount
  split
  · exact h
  · intro a ha
    rcases List.mem_append.mp ha with ha | ha
    · exact h a ha
    · rw [List.mem_singleton.mp ha]
      exact Account.isLegible_opened name

theorem legible_opened (h : s.Legible) (names : List String) : (s.opened names).Legible := by
  unfold opened
  induction names generalizing s with
  | nil => exact h
  | cons name rest ih => exact ih (legible_withAccount h name)

theorem legible_updateAccount (h : s.Legible) (name : String) {f : Account → Account}
    (hf : ∀ a : Account, a.IsLegible → (f a).IsLegible) : (s.updateAccount name f).Legible := by
  intro a ha
  obtain ⟨b, hb, rfl⟩ := List.mem_map.mp ha
  split
  · exact hf b (h b hb)
  · exact h b hb

/-- A balance says nothing about a preference. -/
theorem legible_credit (h : s.Legible) (name : String) (amount : Amount) :
    (s.credit name amount).Legible := legible_updateAccount h name fun _ legible => legible

theorem legible_creditAll (h : s.Legible) (credits : List (String × Amount)) :
    (s.creditAll credits).Legible := by
  unfold creditAll
  induction credits generalizing s with
  | nil => exact h
  | cons c rest ih => exact ih (legible_credit h c.1 c.2)

theorem legible_transferred (h : s.Legible) (i : Transfer.Intent) (rows : List Entry) :
    (s.transferred i rows).Legible := by
  have hopened := legible_opened h (lockOrder (i.source :: i.credits.map (·.1)))
  have hdebited : ((s.opened (lockOrder (i.source :: i.credits.map (·.1)))).debit i.source
      (.sum (i.credits.map (·.2)))).Legible :=
    legible_updateAccount hopened i.source fun _ legible => legible
  exact legible_creditAll hdebited i.credits

end Store
end Ledger

/-- Nothing is ever stored as a preference but preferences. -/
theorem State.Reached.legible {σ : State} (h : σ.Reached) : σ.store.Legible := by
  induction h with
  | refl => exact fun a ha => absurd ha List.not_mem_nil
  | tail _ change ih =>
    cases change with
    | opened => exact Store.legible_withAccount ih _
    | set _ legible => exact Store.legible_updateAccount ih _ legible
    | deposited => exact Store.legible_credit ih _ _
    | tipped => exact Store.legible_transferred ih _ _
    | @paidOut _ _ desk d _ participants _ utc =>
      exact Store.legible_transferred ih (d.payment participants)
        (desk.rowsFor (d.payment participants) utc)
    | created | claimed | closed => exact ih

/-- Where every preference can be read, those of any names are found. -/
theorem Ledger.Store.Legible.reads {s : Store} (h : s.Legible) (names : List String) : ∃ found,
    (names.mapM fun name => do
      match s.account? name with
      | some account => return (name, ← account.read)
      | none => return (name, none) : Checked (List (String × Option Preference))) =
        .ok found := by
  induction names with
  | nil => exact ⟨[], rfl⟩
  | cons name rest ih =>
    obtain ⟨found, hfound⟩ := ih
    rw [List.mapM_cons, hfound]
    cases haccount : s.account? name with
    | none => exact ⟨_, rfl⟩
    | some account =>
      obtain ⟨chosen, hchosen⟩ := h account (List.mem_of_find?_eq_some haccount)
      refine ⟨(name, chosen) :: found, ?_⟩
      dsimp only
      rw [hchosen]
      rfl

theorem Ledger.preferencesOf_failsOnly {s : Store} {P : Fault → Prop} (h : s.Legible)
    (names : List String) : (preferencesOf names).FailsOnly s P := by
  unfold preferencesOf
  split
  · exact Work.failsOnly_pure
  · refine Work.failsOnly_tables.bind fun desk t mid hs hgives => ?_
    obtain ⟨ht, rfl⟩ := Work.gives_tables.mp hgives
    obtain rfl := hs.unique ht
    obtain ⟨found, hfound⟩ := h.reads (distinct names)
    refine ⟨s, hs, Work.failsOnly_check fun why herror => ?_⟩
    cases hfound.symm.trans herror

/-- An amount that a column can hold has few enough digits to be written out. -/
theorem Amount.short_of_fits {a : Amount} (h : a.units ≤ columnMax) :
    a.units < 10 ^ Decimal.standard.precision := by
  have : (columnMax : Int) < (10 ^ Decimal.standard.precision : Nat) := by decide
  omega

theorem Amount.format_ok {a : Amount} (h : a.units ≤ columnMax) (ticker : String) :
    ∃ written, a.format ticker = .ok written :=
  ⟨_, format_eq_printed (short_of_fits h) ticker⟩

/-! ### Programs that tell -/

/-- The platform has a markup for every mention. -/
def World.Mentions (W : World) : Prop :=
  ∀ (account : String) (b : Except CallFault String),
    W _ (.mention account) b → ∃ markup, b = .ok markup

/-- The unit of work only asked. -/
def Kept.Asks (k : Kept) : Prop := k.after.store = k.before.store

theorem State.Keeps.asks {σ τ : State} {α : Type} {work : Work α} {a : α}
    (h : σ.Keeps work a τ) (reads : work.Reads) : τ.store = σ.store := by
  obtain ⟨_, desk, after, -, hgives, hτ, -⟩ := h
  exact hτ.unique (reads (σ.holds_begun desk) hgives)

/-- What a program that tells ends with: something of a kind, or a failure, which it has only from a
mention. -/
def Heard {α : Type} (W : World) (P : α → Prop) : Checked α → Prop
  | .ok a => P a
  | .error _ => ¬W.Mentions

namespace Program
variable {α β : Type} {W : World} {P : α → Prop} {Q : β → Prop}

/-- Whether a program only asks, and fails for no reason but that there is no markup. -/
def Tells (p : Program α) (W : World) (P : α → Prop) : Prop :=
  ∀ ⦃σ : State⦄ ⦃own : List Kept⦄ ⦃r : Checked α⦄ ⦃τ : State⦄, σ.Reached → p.Plays W σ own r τ →
    (∀ k ∈ own, k.Asks) ∧ Heard W P r

theorem tells_done {result : Checked α} (h : Heard W P result) : (done result).Tells W P := by
  intro σ own r τ _ play
  obtain ⟨rfl, rfl, -⟩ := play
  exact ⟨fun k hk => absurd hk List.not_mem_nil, h⟩

theorem Tells.bind {p : Program α} {f : α → Program β} (hp : p.Tells W P)
    (hf : ∀ a, P a → (f a).Tells W Q) : (p >>= f).Tells W Q := by
  intro σ own r τ h play
  rcases plays_bind.mp play with ⟨why, hplay, rfl⟩ | ⟨a, μ, first, second, hplay, hnext, rfl⟩
  · obtain ⟨hasks, hheard⟩ := hp h hplay
    exact ⟨hasks, hheard⟩
  · obtain ⟨hasks, ha⟩ := hp h hplay
    obtain ⟨hmore, hheard⟩ := hf a ha (h.run hplay.run) hnext
    exact ⟨List.forall_mem_append.mpr ⟨hasks, hmore⟩, hheard⟩

theorem tells_perform {γ : Type} {e : Effect γ} {next : γ → Program α} (other : e.isWork = false)
    (hnext : ∀ b, W γ e b → (next b).Tells W P) : (perform e next).Tells W P := by
  intro σ own r τ h play
  obtain ⟨ready, b, others, hworld, hrest⟩ := (plays_perform other).mp play
  exact hnext b hworld (h.run others) hrest

theorem tells_note {level : Log.Level} {part message : String}
    {fields : List (String × Value)} : (note level part message fields).Tells W fun _ => True :=
  tells_perform rfl fun _ _ => tells_done trivial

theorem tells_tryCall {c : Call} {limit : Option Binary64} :
    (tryCall c limit).Tells W fun _ => True :=
  tells_perform rfl fun _ _ => tells_done trivial

theorem tells_mention {account : String} : (mention account).Tells W fun _ => True := by
  refine tells_perform rfl fun b hworld => ?_
  cases b with
  | ok markup => exact tells_done trivial
  | error why =>
    refine tells_done fun mentions => ?_
    obtain ⟨_, hnever⟩ := mentions account _ hworld
    cases hnever

theorem tells_check {x : Checked α} (h : ∃ a, x = .ok a) : (check x).Tells W fun _ => True := by
  obtain ⟨a, rfl⟩ := h
  exact tells_done trivial

end Program

/-! ### Announcements -/

/-- Whether the amounts of a receipt fit into columns. -/
def Transfer.Receipt.Fits (r : Receipt) : Prop :=
  r.moved.units ≤ columnMax ∧ r.share.units ≤ columnMax

theorem Transfer.Receipt.fits_ofSplit {i : Intent} (h : i.amount.units ≤ columnMax)
    (event : Uuid) (time : Moment) : (Receipt.ofSplit event i i.split time).Fits := by
  have hmoved : i.split.moved.units ≤ i.amount.units := Intent.moved_le
  have hshare : i.split.share.units ≤ i.amount.units := Nat.div_le_self _ _
  constructor
  · show (i.split.moved.units : Int) ≤ columnMax
    omega
  · show (i.split.share.units : Int) ≤ columnMax
    omega

namespace Notifier
variable {n : Notifier} {W : World} {channel : String}

theorem format_ok {a : Amount} (h : a.units ≤ columnMax) (n : Notifier) :
    ∃ written, Checked.ofArithmetic (a.format n.ticker) = .ok written := by
  obtain ⟨written, hwritten⟩ := Amount.format_ok h n.ticker
  exact ⟨written, by rw [hwritten]; rfl⟩

theorem tells_send {target kind : String} {c : Call} :
    (n.send target kind c).Tells W fun _ => True := by
  refine Program.tells_tryCall.bind fun answer _ => ?_
  cases answer with
  | ok reply => exact Program.tells_done trivial
  | error why => exact Program.tells_note.bind fun _ _ => Program.tells_done trivial

theorem tells_tell {recipient sender : String} {share : Amount} (fits : share.units ≤ columnMax) :
    (n.tell recipient sender share).Tells W fun _ => True :=
  (Program.tells_check (format_ok fits n)).bind fun _ _ => tells_send.bind fun _ _ =>
    Program.tells_done trivial

theorem tells_targetOf {recipient : String} {plan : Delivery} :
    (n.targetOf recipient plan).Tells W fun _ => True := by
  unfold targetOf
  split
  · exact Program.tells_mention
  · refine Program.Tells.bind (P := fun _ => True) ?_ fun _ _ => Program.tells_done trivial
    refine Program.tells_tryCall.bind fun answer _ => ?_
    cases answer <;> exact Program.tells_done trivial

section Told
variable {r : Transfer.Receipt} (fits : r.Fits) {preferences : Preferences}
  (legible : ∀ name, ∃ chosen, preferences name = .ok chosen)
include fits legible

theorem tells_notifyOne {recipient : String} :
    (n.notifyOne r channel recipient preferences).Tells W fun _ => True := by
  refine (Program.tells_check (legible recipient)).bind fun preference _ =>
    (Program.tells_check (format_ok fits.1 n)).bind fun _ _ => Program.tells_mention.bind fun _ _ =>
    tells_targetOf.bind fun _ _ => tells_send.bind fun _ _ => ?_
  by_cases direct : (Delivery.of preference).direct
  · rw [if_pos direct]
    exact (tells_tell fits.2).bind fun _ _ => Program.tells_done trivial
  · rw [if_neg direct]
    exact Program.tells_done trivial

theorem tells_tellEach {sender : String} {recipients : List String} :
    (n.tellEach sender r.share preferences recipients).Tells W fun _ => True := by
  induction recipients with
  | nil => exact Program.tells_done trivial
  | cons recipient rest ih =>
    refine (Program.tells_check (legible recipient)).bind fun preference _ => ?_
    by_cases direct : (Delivery.of preference).direct
    · rw [if_pos direct]
      exact (tells_tell fits.2).bind fun _ _ => ih.bind fun _ _ => Program.tells_done trivial
    · rw [if_neg direct]
      exact ih

theorem tells_notifyMany :
    (n.notifyMany r channel preferences).Tells W fun _ => True :=
  Program.tells_mention.bind fun _ _ => (Program.tells_check (format_ok fits.1 n)).bind fun _ _ =>
    tells_send.bind fun _ _ => (tells_tellEach fits legible).bind fun _ _ =>
    Program.tells_done trivial

end Told

/-- Preferences are found, or nobody has chosen. -/
theorem tells_preferencesFor {recipients : List String} :
    (n.preferencesFor recipients).Tells W fun preferences =>
      ∀ name, ∃ chosen, preferences name = .ok chosen := by
  have hunset : (pure unset : Program Preferences).Tells W fun preferences =>
      ∀ name, ∃ chosen, preferences name = .ok chosen :=
    Program.tells_done fun name => ⟨none, rfl⟩
  unfold preferencesFor
  split
  · exact hunset
  intro σ own r τ h play
  obtain ⟨ready, others, ⟨found, μ, rest, hkept, hafter, rfl⟩ | ⟨why, -, hundone, hafter⟩⟩ :=
    play.tried
  · obtain ⟨rfl, rfl, -⟩ := hafter
    refine ⟨fun k hk => ?_, fun name => ⟨_, rfl⟩⟩
    rw [List.mem_singleton.mp hk]
    exact hkept.asks (reads_preferencesOf recipients)
  · have hlegible := (h.run others).legible
    rcases hundone.faults (P := fun _ => False) (preferencesOf_failsOnly hlegible recipients) with
      ⟨cause, rfl⟩ | ⟨hnever, -⟩
    · obtain ⟨μ, later, hrest⟩ := hafter.noted
      exact hunset ((h.run others).run later) hrest
    · exact hnever.elim

/-- Everybody is told, and a report is made of it, unless somebody cannot be mentioned. -/
theorem tells_notify {r : Transfer.Receipt} (fits : r.Fits) :
    (n.notify r channel none).Tells W fun _ => True := by
  refine tells_preferencesFor.bind fun preferences legible => ?_
  have hreport (sends : List (Option Undelivered)) : (do
      let report := DeliveryReport.ofSends r.event sends
      Program.note .info part "settlement_notified"
        [("event_id", .text r.event.text), ("attempted", .nat report.attempted),
         ("delivered", .nat report.delivered), ("failed", .nat report.failures.length)]
      return report : Program DeliveryReport).Tells W fun _ => True :=
    Program.tells_note.bind fun _ _ => Program.tells_done trivial
  dsimp only
  split
  · exact (tells_notifyOne fits legible).bind fun sends _ => hreport sends
  · exact (tells_notifyMany fits legible).bind fun sends _ => hreport sends

end Notifier
end TipJar
