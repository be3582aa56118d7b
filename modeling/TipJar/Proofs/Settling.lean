import TipJar.Proofs.Payability
import TipJar.Proofs.Telling

/-! How a sweeper settles one drop.

Between its claim and its last unit of work a sweeper is alone with nobody: others
tip, deposit, sweep, and may even finish the very drop it works on. `Attempted` lists
all the ways in which this can go, with the units of work that are the sweeper's own
and what it reports. -/
namespace TipJar
open Ledger

/-! ### Who takes part -/

namespace Drop
variable {participants : List String} {initiator name : String}

theorem length_eligible_le (participants : List String) (initiator : String) :
    (eligible participants initiator).length ≤ participants.length := by
  have hfirsts (names : List String) : (eligible.firsts names).length ≤ names.length := by
    induction names with
    | nil => exact Nat.le_refl 0
    | cons name rest ih =>
      exact Nat.succ_le_succ (Nat.le_trans (List.length_filter_le _ _) ih)
  exact Nat.le_trans (List.length_filter_le _ _) (hfirsts participants)

theorem mem_eligible : name ∈ eligible participants initiator ↔
    name ∈ participants ∧ name ≠ initiator := by
  have hfirsts (names : List String) : name ∈ eligible.firsts names ↔ name ∈ names := by
    induction names with
    | nil => exact Iff.rfl
    | cons other rest ih =>
      simp only [eligible.firsts, List.mem_cons, List.mem_filter, ih, bne_iff_ne, ne_eq]
      by_cases h : name = other <;> simp [h]
  rw [eligible, List.mem_filter, hfirsts, bne_iff_ne]

theorem nodup_eligible (participants : List String) (initiator : String) :
    (eligible participants initiator).Nodup := by
  have hfirsts (names : List String) : (eligible.firsts names).Nodup := by
    induction names with
    | nil => exact List.nodup_nil
    | cons name rest ih =>
      refine List.nodup_cons.mpr ⟨fun h => ?_, ih.filter _⟩
      exact absurd (List.mem_filter.mp h).2 (by simp)
  exact (hfirsts participants).filter _

theorem not_mem_eligible (participants : List String) (initiator : String) :
    initiator ∉ eligible participants initiator := fun h => (mem_eligible.mp h).2 rfl

end Drop

/-- A drop is there, perhaps further on in its life. -/
def State.Knows (σ : State) (d : Drop) : Prop := ∃ row ∈ σ.store.drops, d.Turns row

/-! ### What a kept unit of work did -/

namespace Kept

/-- The unit claimed a drop, and gave it. -/
inductive Claims (k : Kept) : Drop → Prop
  | claimed {row : Drop} {time : Moment} (found : k.before.store.drop? row.id = some row)
      (pending : row.has .pending = true)
      (left : k.after.store = k.before.store.updateDrop row.id (·.asClaimed time)) :
      Claims k (row.asClaimed time)

/-- The unit closed a settling drop. -/
inductive Closes (k : Kept) (id : Uuid) (ending : Drop.Ending) : Prop
  | closed {row : Drop} (found : k.before.store.drop? id = some row)
      (settling : row.has .settling = true)
      (left : k.after.store = k.before.store.updateDrop id (·.closed ending))

/-- The unit paid a settling drop out. -/
inductive Pays (k : Kept) (d : Drop) (participants : List String) (minimum : Amount)
    (receipt : Transfer.Receipt) : Prop
  | paid {desk : Desk} {row : Drop} {utc : Moment}
      (found : k.before.store.drop? d.id = some row) (settling : row.has .settling = true)
      (pays : desk.CanPay k.before.store (d.payment participants) minimum (some d.id) utc)
      (given : .ofSplit (desk.ids desk.nextId) (d.payment participants)
        (d.payment participants).split desk.now = receipt)
      (left : k.after.store = k.before.store.paidOut d participants
        (desk.rowsFor (d.payment participants) utc) (desk.ids desk.nextId) utc)

/-- A drop that was claimed is there. -/
theorem Claims.knows {k : Kept} {d : Drop} (h : k.Claims d) (reached : k.before.Reached) :
    k.after.Knows d := by
  cases h with
  | claimed found pending left =>
    refine ⟨_, ?_, .refl⟩
    rw [left]
    exact (Store.mem_updateDrop _ reached.idsDiffer found).mpr (.inl rfl)

end Kept

namespace World

/-- Whether the store may lose a unit of work of an operation. -/
def Loses (W : World) (operation : String) : Prop :=
  ∃ (α : Type) (work : Work α) (cause : StoreFault),
    W _ (.chore (.transact operation work)) (.error (.refused (.unsaved operation cause)))

/-- Whether the platform may name more people than a column can count. -/
def Overflows (W : World) : Prop :=
  ∃ (channel message token : String) (limit : Option Binary64) (reacted : List String),
    W _ (.call (.reactions channel message token) limit) (.ok reacted) ∧
      columnMax < reacted.length

end World

namespace State
variable {σ τ : State} {d : Drop}

theorem Knows.run (h : σ.Reached) (known : σ.Knows d) (more : Run σ τ) : τ.Knows d := by
  obtain ⟨row, hrow, hturns⟩ := known
  obtain ⟨e, he, hmore⟩ := more.changes.turns h hrow
  exact ⟨e, he, hturns.trans hmore⟩

theorem Knows.found (h : σ.Reached) (known : σ.Knows d) :
    ∃ row, σ.store.drop? d.id = some row ∧ d.Turns row := by
  obtain ⟨row, hrow, hturns⟩ := known
  have hfound := Store.drop?_of_mem h.idsDiffer hrow
  rw [hturns.same.1] at hfound
  exact ⟨row, hfound, hturns⟩

theorem Knows.fits (h : σ.Reached) (known : σ.Knows d) : d.amount.units ≤ columnMax := by
  obtain ⟨row, hrow, hturns⟩ := known
  have hfits := (h.lived row hrow).sound.2.2
  rw [hturns.same.2.2] at hfits
  exact hfits

/-- A drop that is over stays as it is, whatever happens. -/
theorem Run.drop?_of_isOver {id : Uuid} (h : σ.Reached) (more : Run σ τ)
    (found : σ.store.drop? id = some d) (ended : d.IsOver) : τ.store.drop? id = some d := by
  have hmem := more.changes.mem_of_isOver h (Store.mem_of_drop? _ id found) ended
  have hreached : τ.Reached := Relation.ReflTransGen.trans h more.changes
  rw [← Store.id_of_drop? _ id found]
  exact Store.drop?_of_mem hreached.idsDiffer hmem

end State

namespace Sweeper

/-! ### The ways it can go -/

/-- Why a drop is failed, as its reason has it. -/
inductive Trouble (s : Sweeper) (d : Drop) : String → Prop
  | unanswered : Trouble s d lookupReason
  | unsaved : Trouble s d storeReason
  | refused {why : Refusal} (validation : why.isValidation = true)
      (small : why.category = .belowMinimum → d.amount < s.minimum) : Trouble s d (reasonOf why)

/-- How the settlement of a claimed drop ends: the sweeper's own units of work, its report, and the
state it is made in. -/
inductive Finished (W : World) (s : Sweeper) (d : Drop) (σ : State) :
    List Kept → Checked Drop.Result → State → Prop
  /-- It is paid out, and people are told about it. -/
  | paid {τ : State} {k : Kept} {asked : List Kept} {participants : List String}
      {receipt : Transfer.Receipt} {r : Checked Drop.Result} (others : State.Run σ k.before)
      (pays : k.Pays d participants s.minimum receipt) (asks : ∀ q ∈ asked, q.Asks)
      (heard : Heard W (· = ⟨d.id, .settled, some receipt, none⟩) r) (later : State.Run k.after τ) :
      Finished W s d σ (k :: asked) r τ
  | expired {τ : State} {k : Kept} {time : Moment} (others : State.Run σ k.before)
      (closes : k.Closes d.id (.expired time)) (later : State.Run k.after τ) :
      Finished W s d σ [k] (.ok ⟨d.id, .expired, none, none⟩) τ
  | failed {τ : State} {k : Kept} {reason : String} {participants : Option Int} {time : Moment}
      (because : s.Trouble d reason) (others : State.Run σ k.before)
      (closes : k.Closes d.id (.failed (keptReason reason) participants time))
      (later : State.Run k.after τ) :
      Finished W s d σ [k] (.ok ⟨d.id, .failed, none, some reason⟩) τ
  /-- Somebody else has finished the drop, and the sweeper notices when it is to pay or expire
  it. -/
  | lost {μ τ : State} {row : Drop} (others : State.Run σ μ)
      (found : μ.store.drop? d.id = some row) (elsewhere : row.has .settling = false)
      (later : State.Run μ τ) :
      Finished W s d σ [] (.ok ⟨d.id, .skipped, none, none⟩) τ
  /-- Somebody else has finished the drop, and the sweeper notices when it is to fail it. -/
  | overtaken {μ τ : State} {row : Drop} {reason : String} (because : s.Trouble d reason)
      (others : State.Run σ μ) (found : μ.store.drop? d.id = some row)
      (elsewhere : row.has .settling = false) (later : State.Run μ τ) :
      Finished W s d σ [] (.ok ⟨d.id, .failed, none, some reason⟩) τ
  /-- The failure of the drop is lost by the store. -/
  | unrecorded {τ : State} {reason : String} (because : s.Trouble d reason)
      (loses : W.Loses "fail_reactdrop") (others : State.Run σ τ) :
      Finished W s d σ [] (.ok ⟨d.id, .failed, none, some reason⟩) τ
  /-- That the drop expired is lost by the store. -/
  | unexpired {τ : State} {cause : StoreFault} (loses : W.Loses "expire_reactdrop")
      (others : State.Run σ τ) :
      Finished W s d σ [] (.error (.refused (.unsaved "expire_reactdrop" cause))) τ
  /-- More people than can be counted took part. -/
  | overflown {τ : State} {why : Fault} (overflows : W.Overflows) (others : State.Run σ τ) :
      Finished W s d σ [] (.error why) τ

/-- How an attempt to settle a drop goes. -/
inductive Attempted (W : World) (s : Sweeper) (id : Uuid) (σ : State) :
    List Kept → Checked Drop.Result → State → Prop
  /-- The drop is pending no more. -/
  | taken {τ : State} {row : Drop} (others : State.Run σ τ) (found : τ.store.drop? id = some row)
      (taken : row.has .pending = false) : Attempted W s id σ [] (.ok ⟨id, .skipped, none, none⟩) τ
  | missing {τ : State} (others : State.Run σ τ) (absent : τ.store.drop? id = none) :
      Attempted W s id σ [] (.error (.refused (.dropNotFound id))) τ
  /-- The claim is lost by the store. -/
  | unclaimed {τ : State} {cause : StoreFault} (loses : W.Loses "claim_reactdrop")
      (others : State.Run σ τ) :
      Attempted W s id σ [] (.error (.refused (.unsaved "claim_reactdrop" cause))) τ
  | claimed {τ : State} {k : Kept} {d : Drop} {own : List Kept} {r : Checked Drop.Result}
      (others : State.Run σ k.before) (claims : k.Claims d) (same : d.id = id)
      (finished : Finished W s d k.after own r τ) : Attempted W s id σ (k :: own) r τ

variable {W : World} {s : Sweeper} {d : Drop} {σ τ υ : State} {own : List Kept}
  {r : Checked Drop.Result}

/-- What others do first makes no difference to the way it goes. -/
theorem Finished.after (h : Finished W s d τ own r υ) (others : State.Run σ τ) :
    Finished W s d σ own r υ := by
  cases h with
  | paid more pays asks heard later => exact .paid (others.trans more) pays asks heard later
  | expired more closes later => exact .expired (others.trans more) closes later
  | failed because more closes later => exact .failed because (others.trans more) closes later
  | lost more found elsewhere later => exact .lost (others.trans more) found elsewhere later
  | overtaken because more found elsewhere later =>
    exact .overtaken because (others.trans more) found elsewhere later
  | unrecorded because loses more => exact .unrecorded because loses (others.trans more)
  | unexpired loses more => exact .unexpired loses (others.trans more)
  | overflown overflows more => exact .overflown overflows (others.trans more)

/-! ### Units of work -/

section Units
variable {id : Uuid} {e : Drop} (operation : String)

theorem claims_of_keeps (h : σ.Keeps (do Ledger.claim id (← Work.now)) e τ) :
    Kept.Claims ⟨operation, σ, τ⟩ e ∧ e.id = id := by
  obtain ⟨marks, desk, after, -, hgives, hτ, -⟩ := h
  simp only [Work.gives_bind, Work.gives_now, claim_gives] at hgives
  obtain ⟨_, _, ⟨rfl, rfl⟩, utc, s, row, -, hs, hrow, hpending, rfl, rfl⟩ := hgives
  obtain rfl := (σ.holds_begun desk).unique hs
  obtain rfl := Store.id_of_drop? _ id hrow
  exact ⟨.claimed hrow hpending (hτ.unique (hs.keep _)), rfl⟩

theorem expires_of_keeps (h : σ.Keeps (do markExpired id (← Work.now)) e τ) :
    ∃ time, Kept.Closes ⟨operation, σ, τ⟩ id (.expired time) := by
  obtain ⟨marks, desk, after, -, hgives, hτ, -⟩ := h
  simp only [Work.gives_bind, Work.gives_now, markExpired_gives] at hgives
  obtain ⟨_, _, ⟨rfl, rfl⟩, utc, s, row, -, hs, hrow, hsettling, -, rfl⟩ := hgives
  obtain rfl := (σ.holds_begun desk).unique hs
  exact ⟨utc, .closed hrow hsettling (hτ.unique (hs.keep _))⟩

theorem fails_of_keeps {reason : String} {participants : Option Int}
    (h : σ.Keeps (do markFailed id reason (← Work.now) participants) e τ) :
    (∃ time, Kept.Closes ⟨operation, σ, τ⟩ id (.failed (keptReason reason) participants time)) ∧
      ∀ n ∈ participants, -columnMax - 1 ≤ n ∧ n ≤ columnMax := by
  obtain ⟨marks, desk, after, -, hgives, hτ, -⟩ := h
  simp only [Work.gives_bind, Work.gives_now, markFailed_gives] at hgives
  obtain ⟨_, _, ⟨rfl, rfl⟩, utc, s, row, -, fits, hs, hrow, hsettling, -, rfl⟩ := hgives
  obtain rfl := (σ.holds_begun desk).unique hs
  exact ⟨⟨utc, .closed hrow hsettling (hτ.unique (hs.keep _))⟩, fits⟩

theorem pays_of_keeps (honest : s.execute = Ledger.execute) {participants : List String}
    {receipt : Transfer.Receipt} (h : σ.Keeps (s.payOut d participants) receipt τ) :
    Kept.Pays ⟨operation, σ, τ⟩ d participants s.minimum receipt := by
  obtain ⟨marks, desk, after, -, hgives, hτ, -⟩ := h
  obtain ⟨t, utc, row, ht, pays, hrow, hsettling, hreceipt, rfl⟩ := (payOut_gives honest).mp hgives
  obtain rfl := (σ.holds_begun desk).unique ht
  exact .paid hrow hsettling pays hreceipt (hτ.unique ((ht.afterTransfer _ _).keep _))

end Units

/-! ### Step by step -/

theorem lost_plays {status : String} {row : Drop} (found : σ.store.drop? d.id = some row)
    (elsewhere : row.has .settling = false) (play : (lost d.id status).Plays W σ own r τ) :
    Finished W s d σ own r τ := by
  obtain ⟨μ, later, rfl, rfl, rfl⟩ := play.noted
  exact .lost .refl found elsewhere later

theorem abandon_plays {reason told : String} {participants : Option Int} (h : σ.Reached)
    (known : σ.Knows d) (because : s.Trouble d reason)
    (few : ∀ n ∈ participants, ¬(-columnMax - 1 ≤ n ∧ n ≤ columnMax) → W.Overflows)
    (play : (abandon d reason told participants).Plays W σ own r τ) :
    Finished W s d σ own r τ := by
  obtain ⟨μ, others, hattempt⟩ := play.noted
  obtain ⟨ready, more, ⟨row, left, rest, hkept, hafter, rfl⟩ | ⟨why, hworld, hundone, hafter⟩⟩ :=
    hattempt.tried
  · obtain ⟨⟨time, closes⟩, -⟩ := fails_of_keeps "fail_reactdrop" hkept
    obtain ⟨rfl, rfl, rfl⟩ := hafter
    exact .failed because (others.trans more) closes .refl
  · have hready := others.trans more
    obtain ⟨row, found, -⟩ := (known.run h hready).found (h.run hready)
    rcases hundone.faults (Work.failsOnly_now.ask Work.reads_now fun _ => markFailed_failsOnly) with
      ⟨cause, rfl⟩ | ⟨fault, hkind⟩
    · obtain ⟨ν, later, rfl, rfl, rfl⟩ := hafter.noted
      exact .unrecorded because ⟨_, _, cause, hworld⟩ (hready.trans later)
    · cases fault with
      | missing absent =>
        rw [found] at absent
        cases absent
      | elsewhere found elsewhere =>
        obtain ⟨ν, later, rfl, rfl, rfl⟩ := hafter.noted
        exact .overtaken because hready found elsewhere later
      | oversized given large =>
        obtain ⟨rfl, rfl, rfl⟩ := hafter
        exact .overflown (few _ given large) hready
      | store why => exact absurd rfl (hkind why)

theorem expire_plays (h : σ.Reached) (known : σ.Knows d)
    (play : (expire d).Plays W σ own r τ) : Finished W s d σ own r τ := by
  obtain ⟨ready, others, ⟨row, left, rest, hkept, hafter, rfl⟩ | ⟨why, hworld, hundone, hafter⟩⟩ :=
    play.tried
  · obtain ⟨time, closes⟩ := expires_of_keeps "expire_reactdrop" hkept
    obtain ⟨μ, later, rfl, rfl, rfl⟩ := hafter.noted
    exact .expired others closes later
  · obtain ⟨row, found, -⟩ := (known.run h others).found (h.run others)
    have hfaults := hundone.faults
      (Work.failsOnly_now.ask Work.reads_now fun _ => markExpired_failsOnly)
    rcases hfaults with ⟨cause, rfl⟩ | ⟨fault, hkind⟩
    · obtain ⟨rfl, rfl, rfl⟩ := hafter
      exact .unexpired ⟨_, _, cause, hworld⟩ others
    · cases fault with
      | missing absent =>
        rw [found] at absent
        cases absent
      | elsewhere found elsewhere => exact (lost_plays found elsewhere hafter).after others
      | oversized given => cases given
      | store why => exact absurd rfl (hkind why)

/-- What a payout is refused for: its participants, its amount, or what its initiator can spend. -/
theorem trouble_of_transferFault {participants : List String} {why : Fault}
    (fits : d.amount.units ≤ columnMax)
    (fault : TransferFault σ.store (d.payment participants) s.minimum (some d.id) why)
    (kind : ∀ cause, why ≠ .store cause) :
    ∃ refusal, why = .refused refusal ∧ refusal.isValidation = true ∧
      (refusal.category = .belowMinimum → d.amount < s.minimum) := by
  cases fault with
  | @improper refusal improper =>
    refine ⟨refusal, rfl, ?_⟩
    unfold Transfer.Intent.check at improper
    split at improper
    · obtain rfl := Except.error.inj improper
      exact ⟨rfl, nofun⟩
    · split at improper
      · obtain rfl := Except.error.inj improper
        exact ⟨rfl, nofun⟩
      · split at improper
        · obtain rfl := Except.error.inj improper
          exact ⟨rfl, nofun⟩
        · split at improper
          · next small =>
            obtain rfl := Except.error.inj improper
            exact ⟨rfl, fun _ => small⟩
          · cases improper
  | denied _ denial =>
    cases denial with
    | nobody | unnamed | uncovered => exact ⟨_, rfl, rfl, nofun⟩
    | oversized large =>
      have hmoved : (d.payment participants).split.moved.units ≤ d.amount.units :=
        Transfer.Intent.moved_le
      omega
    | overflowed => exact absurd rfl (kind .overflowed)
  | unrecorded cause => exact absurd rfl (kind cause)

theorem settle_plays (honest : s.execute = Ledger.execute) {participants : List String}
    (h : σ.Reached) (known : σ.Knows d) (few : columnMax < participants.length → W.Overflows)
    (play : (s.settle d participants).Plays W σ own r τ) : Finished W s d σ own r τ := by
  have hfits := known.fits h
  have hfew : ∀ n ∈ some (participants.length : Int), ¬(-columnMax - 1 ≤ n ∧ n ≤ columnMax) →
      W.Overflows := by
    intro n hn large
    obtain rfl := Option.some.inj hn
    exact few (Int.not_le.mp (mt natCast_fits.mpr large))
  obtain ⟨ready, others, ⟨receipt, left, rest, hkept, hafter, rfl⟩ |
    ⟨why, hworld, hundone, hafter⟩⟩ := play.tried
  · have pays := pays_of_keeps "settle_reactdrop" honest hkept
    have hleft : left.Reached := (h.run others).run hkept.run
    obtain ⟨μ, later, htold⟩ := hafter.noted
    have hreceipt : receipt.Fits := by
      obtain ⟨_, _, _, given, _⟩ := pays
      rw [← given]
      exact Transfer.Receipt.fits_ofSplit hfits _ _
    split at htold
    · rcases Program.plays_bind.mp htold with
        ⟨why, hnotify, rfl⟩ | ⟨report, ν, asked, _, hnotify, ⟨rfl, rfl, rfl⟩, rfl⟩
      · obtain ⟨asks, silent⟩ := Notifier.tells_notify hreceipt (hleft.run later) hnotify
        exact .paid others pays asks silent (later.trans hnotify.run)
      · obtain ⟨asks, -⟩ := Notifier.tells_notify hreceipt (hleft.run later) hnotify
        rw [List.append_nil]
        exact .paid others pays asks rfl (later.trans hnotify.run)
    · obtain ⟨rfl, rfl, rfl⟩ := htold
      exact .paid others pays (fun q hq => absurd hq List.not_mem_nil) rfl later
  · have hready := h.run others
    have hknown := known.run h others
    rcases hundone.faults (payOut_failsOnly honest) with ⟨cause, rfl⟩ | ⟨fault | fault, hkind⟩
    · exact (abandon_plays hready hknown .unsaved hfew hafter).after others
    · obtain ⟨refusal, rfl, validation, small⟩ := trouble_of_transferFault hfits fault hkind
      have hfinished (told : String)
          (play : (abandon d (reasonOf refusal) told (some participants.length)).Plays W ready own
            r τ) : Finished W s d σ own r τ :=
        (abandon_plays hready hknown (.refused validation small) hfew play).after others
      split at hafter
      · next heq => cases heq
      · next heq =>
        cases heq
        cases validation
      · next heq =>
        cases heq
        rw [if_pos validation] at hafter
        exact hfinished _ hafter
      · next hnone heq => exact (hnone refusal (Except.error.inj heq).symm).elim
    · cases fault with
      | missing absent =>
        obtain ⟨row, found, -⟩ := hknown.found hready
        rw [found] at absent
        cases absent
      | elsewhere found elsewhere => exact (lost_plays found elsewhere hafter).after others
      | oversized given large =>
        have hmoved : (d.payment participants).split.moved.units ≤ d.amount.units :=
          Transfer.Intent.moved_le
        obtain rfl := Option.some.inj given
        omega
      | store cause => exact absurd rfl (hkind cause)

/-- However an attempt to settle a drop goes, it is one of the ways above. -/
theorem settleOne_plays (honest : s.execute = Ledger.execute) {id : Uuid} (h : σ.Reached)
    (play : (s.settleOne id).Plays W σ own r τ) : Attempted W s id σ own r τ := by
  obtain ⟨ready, others, ⟨d, left, rest, hkept, hafter, rfl⟩ | ⟨why, hworld, hundone, hafter⟩⟩ :=
    play.tried
  · obtain ⟨claims, rfl⟩ := claims_of_keeps "claim_reactdrop" hkept
    have hleft : left.Reached := (h.run others).run hkept.run
    have known : left.Knows d := claims.knows (h.run others)
    obtain ⟨asked, answer, meanwhile, hanswer, hrest⟩ := hafter.asked rfl
    refine .claimed others claims rfl (Finished.after ?_ meanwhile)
    have hasked := hleft.run meanwhile
    have known := known.run hleft meanwhile
    cases answer with
    | error why =>
      exact abandon_plays hasked known .unanswered
        (fun _ hn => absurd hn (Option.not_mem_none _)) hrest
    | ok reacted =>
      have few : columnMax < (Drop.eligible reacted d.initiator).length → W.Overflows := by
        intro many
        have := Drop.length_eligible_le reacted d.initiator
        exact ⟨_, _, _, _, reacted, hanswer, by omega⟩
      dsimp only at hrest
      generalize Drop.eligible reacted d.initiator = participants at hrest few
      cases participants with
      | nil => exact expire_plays hasked known hrest
      | cons name rest => exact settle_plays honest hasked known few hrest
  · rcases hundone.faults (Work.failsOnly_now.ask Work.reads_now fun _ => claim_failsOnly) with
      ⟨cause, rfl⟩ | ⟨fault, hkind⟩
    · obtain ⟨rfl, rfl, rfl⟩ := hafter
      exact .unclaimed ⟨_, _, cause, hworld⟩ others
    · cases fault with
      | missing absent =>
        obtain ⟨rfl, rfl, rfl⟩ := hafter
        exact .missing others absent
      | elsewhere found elsewhere =>
        obtain ⟨rfl, rfl, rfl⟩ := hafter
        exact .taken others found elsewhere
      | oversized given => cases given
      | store cause => exact absurd rfl (hkind cause)

end Sweeper
end TipJar
