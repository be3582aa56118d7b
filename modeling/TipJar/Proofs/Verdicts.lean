import TipJar.Proofs.Acts

/-! What becomes of a drop.

A sweeper that nobody disturbs decides over a claimed drop by three things: the drop,
what the platform answers when it is asked who took part, and the least amount the
sweeper pays out. What else is in the tables makes no difference, since what the drop
pays out is put aside for it. So how a settlement ends can be computed beforehand:
how the row is left, what is reported, and by how much every balance moves whose
column has room for that. -/
namespace TipJar
open Ledger

/-- How the settlement of a claimed drop ends. -/
inductive Verdict
  | settled (participants : List String)
  | expired
  | failed (reason : String) (participants : Option Int)
  /-- More people took part than can be written down, and the drop stays claimed. -/
  | stuck

namespace Verdict

/-- The drop is failed, if the number of those who took part can be written down. -/
def failing (reason : String) (participants : Option Int) : Verdict :=
  if participants.all fun n => decide (-columnMax - 1 ≤ n ∧ n ≤ columnMax) then
    .failed reason participants
  else .stuck

/-- The row of a claimed drop once its settlement has ended. -/
def row (v : Verdict) (c : Drop) (time : Moment) (event : Uuid) : Drop :=
  match v with
  | settled participants =>
    c.asSettled event participants.length (c.payment participants).split.moved time
  | expired => c.asExpired time
  | failed reason participants => c.asFailed (keptReason reason) participants time
  | stuck => c

/-- What an account loses by it. -/
def lost (v : Verdict) (d : Drop) (name : String) : Nat :=
  match v with
  | settled participants =>
    if d.initiator = name then (d.payment participants).split.moved.units else 0
  | _ => 0

/-- What an account gains by it. -/
def gained (v : Verdict) (d : Drop) (name : String) : Nat :=
  match v with
  | settled participants =>
    if name ∈ participants then (d.payment participants).split.share.units else 0
  | _ => 0

/-- Whether the column of an account has room for what the account gains by it. -/
def HasRoom (v : Verdict) (d : Drop) (s : Store) (name : String) : Prop :=
  ((s.balance name).units + v.gained d name : Nat) ≤ columnMax

/-- What is reported of it. -/
def told : Verdict → Option (Drop.Outcome × Option String)
  | settled _ => some (.settled, none)
  | expired => some (.expired, none)
  | failed reason _ => some (.failed, some reason)
  | stuck => none

theorem gained_le (v : Verdict) (d : Drop) (name : String) : v.gained d name ≤ d.amount.units := by
  cases v with
  | settled participants =>
    show (if name ∈ participants then d.amount.units / participants.length else 0) ≤ _
    split
    · exact Nat.div_le_self _ _
    · exact Nat.zero_le _
  | expired | failed | stuck => exact Nat.zero_le _

end Verdict

/-- What a report tells, if there is one. -/
def Drop.Result.told : Checked Result → Option (Outcome × Option String)
  | .ok r => some (r.outcome, r.reason)
  | .error _ => none

/-- Whoever asks the platform who took part in a drop gets this answer. -/
def World.Replies (W : World) (d : Drop) (answer : Except CallFault (List String)) : Prop :=
  ∀ limit b, W _ (.call (.reactions d.channel d.message d.token) limit) b → b = answer

namespace Sweeper

/-- How the settlement of a drop among participants ends. -/
def verdictAmong (s : Sweeper) (d : Drop) (participants : List String) : Verdict :=
  if d.amount < s.minimum then
    .failing (reasonOf (.belowMinimum d.amount s.minimum)) (some participants.length)
  else if participants.all fun name => (checkName (.text name)).isOk then .settled participants
  else .failing Category.validation.code.toLower (some participants.length)

/-- How the settlement of a drop ends, by what the platform answers. -/
def verdict (s : Sweeper) (d : Drop) : Except CallFault (List String) → Verdict
  | .error _ => .failed lookupReason none
  | .ok reacted =>
    match Drop.eligible reacted d.initiator with
    | [] => .expired
    | participants => s.verdictAmong d participants

/-- What a sweeper does with a claimed drop once it knows who has reacted. -/
def proceed (s : Sweeper) (c : Drop) (reacted : List String) : Program Drop.Result :=
  match Drop.eligible reacted c.initiator with
  | [] => expire c
  | participants => s.settle c participants

section Answered
variable {s : Sweeper} {c : Drop} {reacted participants : List String}

theorem proceed_nobody (nobody : Drop.eligible reacted c.initiator = []) :
    s.proceed c reacted = expire c := by
  rw [proceed, nobody]

theorem verdict_nobody (nobody : Drop.eligible reacted c.initiator = []) :
    s.verdict c (.ok reacted) = .expired := by
  rw [verdict, nobody]

theorem proceed_among (among : Drop.eligible reacted c.initiator = participants)
    (nonempty : participants ≠ []) : s.proceed c reacted = s.settle c participants := by
  cases participants with
  | nil => exact absurd rfl nonempty
  | cons => rw [proceed, among]

theorem verdict_among (among : Drop.eligible reacted c.initiator = participants)
    (nonempty : participants ≠ []) : s.verdict c (.ok reacted) = s.verdictAmong c participants := by
  cases participants with
  | nil => exact absurd rfl nonempty
  | cons => rw [verdict, among]

end Answered

/-- The settlement of a claimed drop has ended as it had to. -/
structure Ends (W : World) (v : Verdict) (c : Drop) (σ : State) (r : Checked Drop.Result)
    (τ : State) : Prop where
  row : ∃ time event, τ.store.drop? c.id = some (v.row c time event)
  others : ∀ id, id ≠ c.id → τ.store.drop? id = σ.store.drop? id
  balances : ∀ name, v.HasRoom c σ.store name →
    (τ.store.balance name).units + v.lost c name =
      (σ.store.balance name).units + v.gained c name
  contained : (∀ name, v.HasRoom c σ.store name) → τ.Contained
  told : W.Mentions → Drop.Result.told r = v.told

variable {W : World} {s : Sweeper} {c : Drop} {σ τ : State} {acts : List Act}
  {r : Checked Drop.Result}

theorem isOk_checkName {name : String} : (checkName (.text name)).isOk = true ↔ IsName name := by
  unfold IsName
  cases hname : checkName (.text name) with
  | ok other =>
    obtain ⟨hsame, -⟩ := checkName_ok hname
    obtain rfl : name = other := Option.some.inj hsame
    exact ⟨fun _ => rfl, fun _ => rfl⟩
  | error why => exact ⟨nofun, nofun⟩

/-! ### Without a payout -/

/-- A drop that is closed moves nothing. -/
theorem ends_of_closed {v : Verdict} {ending : Drop.Ending} {result : Drop.Result} {time : Moment}
    (event : Uuid) (h : σ.Contained) (step : Relation.ReflGen State.Step σ τ)
    (found : σ.store.drop? c.id = some c)
    (left : τ.store = σ.store.updateDrop c.id (·.closed ending))
    (same : c.closed ending = v.row c time event) (still : ∀ name, v.lost c name = v.gained c name)
    (told : Drop.Result.told (.ok result) = v.told) : Ends W v c σ (.ok result) τ where
  row := by
    refine ⟨time, event, ?_⟩
    rw [left, Store.drop?_updateDrop _ _ fun d => d.id_closed ending, if_pos rfl, found, ← same]
    rfl
  others id other := by
    rw [left, Store.drop?_updateDrop _ _ fun d => d.id_closed ending, if_neg other]
  balances name _ := by
    rw [left, still name]
    rfl
  contained _ := by
    refine h.next step ?_
    rw [left]
    exact h.bounded
  told _ := told

/-- A payout moves the shares and nothing else. -/
theorem ends_of_paid {k : Kept} {participants : List String} {receipt : Transfer.Receipt}
    (h : k.before.Contained) (step : Relation.ReflGen State.Step k.before k.after)
    (found : k.before.store.drop? c.id = some c)
    (pays : k.Pays c participants s.minimum receipt)
    (same : τ.store = k.after.store) (contained : k.after.Contained → τ.Contained)
    (told : W.Mentions → Drop.Result.told r = some (.settled, none)) :
    Ends W (s.verdictAmong c participants) c k.before r τ := by
  obtain ⟨desk, utc, can, left⟩ : ∃ desk utc,
      Desk.CanPay desk k.before.store (c.payment participants) s.minimum (some c.id) utc ∧
        k.after.store = k.before.store.paidOut c participants
          (desk.rowsFor (c.payment participants) utc) (desk.ids desk.nextId) utc := by
    cases pays with
    | paid _ _ can _ left => exact ⟨_, _, can, left⟩
  obtain ⟨-, different, apart, least⟩ := Transfer.Intent.check_ok.mp can.proper
  have hleast : ¬c.amount < s.minimum := Nat.not_lt.mpr least
  have hnamed : participants.all (fun name => (checkName (.text name)).isOk) = true :=
    List.all_eq_true.mpr fun name hname =>
      isOk_checkName.mpr (can.names name (List.mem_cons_of_mem _ hname))
  have hpays := Store.paysOut_paidOut h.reached.idsDiffer (Store.mem_of_drop? _ c.id found)
    (h.bounded c.initiator) can
  have hgained {name : String} (hname : name ∈ participants) :
      (Verdict.settled participants).gained c name = c.amount.units / participants.length :=
    if_pos hname
  rw [verdictAmong, if_neg hleast, if_pos hnamed]
  refine ⟨⟨utc, desk.ids desk.nextId, ?_⟩, fun id other => ?_, fun name room => ?_, fun room => ?_,
    told⟩
  · rw [same, left, Store.drop?_paidOut, if_pos rfl, found]
    rfl
  · rw [same, left, Store.drop?_paidOut, if_neg other]
  · have hcovered := (Store.covers_iff_of_fits (some c.id) (h.bounded c.initiator)).mp can.covered
    rw [same, left, Store.balance_paidOut]
    exact Store.balance_transferred_of_fits (desk.rowsFor (c.payment participants) utc) different
      apart (h.bounded c.initiator) (Nat.le_of_add_left_le hcovered)
      fun hname => by rwa [Verdict.HasRoom, hgained hname] at room
  · refine contained (h.next step ?_)
    rw [left]
    refine hpays.bounded h.bounded fun name hname => ?_
    have hroom := room name
    rwa [Verdict.HasRoom, hgained hname] at hroom

/-- Of a payout to proper participants only the amount is left to check. -/
theorem check_payment {participants : List String} (nonempty : participants ≠ [])
    (different : participants.Nodup) (apart : c.initiator ∉ participants) {minimum : Amount} :
    (c.payment participants).check minimum =
      if c.amount < minimum then .error (.belowMinimum c.amount minimum) else .ok () := by
  refine (if_neg nonempty).trans ((if_neg (not_not_intro different)).trans ?_)
  exact if_neg apart

section Claimed
variable (saves : ∀ operation, ¬W.Loses operation) (h : σ.Contained)
  (found : σ.store.drop? c.id = some c) (settling : c.has .settling = true)
include saves h found settling

/-- A failure is recorded unless the number that comes with it is too large. -/
theorem abandon_alone {reason told : String} {participants : Option Int}
    (goes : (abandon c reason told participants).Goes W Eq σ acts r τ) :
    Ends W (.failing reason participants) c σ r τ := by
  obtain ⟨_, -, rfl, -, hattempt⟩ := (Program.goes_asked rfl).mp goes
  have hfits : participants.all (fun n => decide (-columnMax - 1 ≤ n ∧ n ≤ columnMax)) = true ↔
      ∀ n ∈ participants, -columnMax - 1 ≤ n ∧ n ≤ columnMax := by
    cases participants <;> simp
  rcases Program.Goes.triedAlone (saves _)
    (Work.failsOnly_now.ask Work.reads_now fun _ => markFailed_failsOnly) hattempt with
    ⟨row, left, rest, hkept, hafter, -⟩ | ⟨why, ⟨fault, kind⟩, hafter⟩
  · obtain ⟨⟨time, closes⟩, fits⟩ := fails_of_keeps "fail_reactdrop" hkept
    obtain ⟨rfl, rfl, rfl⟩ := hafter
    rw [Verdict.failing, if_pos (hfits.mpr fits)]
    cases closes with
    | closed _ _ left => exact ends_of_closed c.id h hkept.step found left rfl (fun _ => rfl) rfl
  · obtain ⟨rfl, _, given, large⟩ := fault.of_there found settling kind
    obtain ⟨rfl, rfl, rfl⟩ := hafter
    rw [Verdict.failing, if_neg fun fits => large (hfits.mp fits _ given)]
    exact ⟨⟨c.deadline, c.id, found⟩, fun _ _ => rfl, fun _ _ => rfl, fun _ => h, fun _ => rfl⟩

theorem expire_alone (goes : (expire c).Goes W Eq σ acts r τ) : Ends W .expired c σ r τ := by
  rcases Program.Goes.triedAlone (saves _)
    (Work.failsOnly_now.ask Work.reads_now fun _ => markExpired_failsOnly) goes with
    ⟨row, left, rest, hkept, hafter, -⟩ | ⟨why, ⟨fault, kind⟩, hafter⟩
  · obtain ⟨time, closes⟩ := expires_of_keeps "expire_reactdrop" hkept
    obtain ⟨_, -, rfl, -, rfl, rfl, rfl⟩ := (Program.goes_asked rfl).mp hafter
    cases closes with
    | closed _ _ left => exact ends_of_closed c.id h hkept.step found left rfl (fun _ => rfl) rfl
  · obtain ⟨-, _, given, -⟩ := fault.of_there found settling kind
    cases given

/-! ### With a payout -/

/-- What a claimed drop pays out is there, so a payout fails for its amount or for a name only. -/
theorem settle_alone (honest : s.execute = Ledger.execute) {participants : List String}
    (nonempty : participants ≠ []) (different : participants.Nodup)
    (apart : c.initiator ∉ participants)
    (goes : (s.settle c participants).Goes W Eq σ acts r τ) :
    Ends W (s.verdictAmong c participants) c σ r τ := by
  have hmem : c ∈ σ.store.drops := Store.mem_of_drop? _ c.id found
  have hsound := (h.reached.lived c hmem).sound
  have hsmall : (c.payment participants).split.moved.units ≤ c.amount.units :=
    Transfer.Intent.moved_le
  rcases Program.Goes.triedAlone (saves _) (payOut_failsOnly honest) goes with
    ⟨receipt, left, rest, hkept, hafter, -⟩ | ⟨why, ⟨fault | fault, kind⟩, hafter⟩
  · have hleft : left.Reached := h.reached.run hkept.run
    have hpays := pays_of_keeps "settle_reactdrop" honest hkept
    have hreceipt : receipt.Fits := by
      obtain ⟨_, _, _, given, _⟩ := hpays
      rw [← given]
      exact Transfer.Receipt.fits_ofSplit hsound.2.2 _ _
    obtain ⟨_, -, rfl, -, htold⟩ := (Program.goes_asked rfl).mp hafter
    split at htold
    · next notifier _ =>
      have htells : (do
          let _ ← notifier.notify receipt c.channel none
          return ⟨c.id, .settled, some receipt, none⟩ : Program Drop.Result).Tells W
            (· = ⟨c.id, .settled, some receipt, none⟩) :=
        (Notifier.tells_notify hreceipt).bind fun _ _ => Program.tells_done rfl
      obtain ⟨asks, heard⟩ := htells hleft htold.plays_alone
      refine ends_of_paid h hkept.step found hpays (htold.unchanged asks) (htold.contained asks)
        fun mentions => ?_
      cases r with
      | ok result =>
        obtain rfl := heard
        rfl
      | error why => exact absurd mentions heard
    · obtain ⟨rfl, rfl, rfl⟩ := htold
      exact ends_of_paid h hkept.step found hpays rfl id fun _ => rfl
  · cases fault with
    | improper improper =>
      rw [check_payment nonempty different apart] at improper
      split at improper
      · next small =>
        obtain rfl := Except.error.inj improper
        rw [verdictAmong, if_pos small]
        exact abandon_alone saves h found settling hafter
      · cases improper
    | denied proper denial =>
      rw [check_payment nonempty different apart] at proper
      split at proper
      · cases proper
      · next small =>
        -- only the last of the denials is one that other settlements could have an influence on
        cases denial with
        | nobody none => exact absurd none nonempty
        | unnamed why party unnamed =>
          have hall : ¬(participants.all fun name => (checkName (.text name)).isOk) = true := by
            intro hall
            rcases List.mem_cons.mp party with rfl | party
            · exact unnamed hsound.1
            · exact unnamed (isOk_checkName.mp (List.all_eq_true.mp hall _ party))
          rw [verdictAmong, if_neg small, if_neg hall]
          exact abandon_alone saves h found settling hafter
        | oversized large =>
          omega
        | overflowed _ large =>
          exact absurd (h.counts c.initiator (some c.id)).held (Int.not_le.mpr large)
        | uncovered _ _ short =>
          have hcovers := h.covers hmem settling participants
          exact absurd ((Store.covers_iff_of_fits _ (h.bounded c.initiator)).mpr hcovers) short
    | unrecorded cause => exact absurd rfl (kind cause)
  · obtain ⟨-, _, given, large⟩ := fault.of_there found settling kind
    obtain rfl := Option.some.inj given
    omega

end Claimed

/-! ### From the claim on -/

/-- The settlement of a drop that was pending has ended as it had to. -/
structure Concludes (W : World) (v : Verdict) (d : Drop) (σ : State) (r : Checked Drop.Result)
    (τ : State) : Prop where
  row : ∃ claimed time event, τ.store.drop? d.id = some (v.row (d.asClaimed claimed) time event)
  others : ∀ id, id ≠ d.id → τ.store.drop? id = σ.store.drop? id
  balances : ∀ name, v.HasRoom d σ.store name →
    (τ.store.balance name).units + v.lost d name =
      (σ.store.balance name).units + v.gained d name
  contained : (∀ name, v.HasRoom d σ.store name) → τ.Contained
  told : W.Mentions → Drop.Result.told r = v.told

/-- A sweeper that nobody disturbs settles a pending drop as the platform answers. -/
theorem settleOne_alone (honest : s.execute = Ledger.execute)
    (saves : ∀ operation, ¬W.Loses operation) (h : σ.Contained) {d : Drop}
    (hd : d ∈ σ.store.drops) (pending : d.has .pending = true)
    {answer : Except CallFault (List String)} (replies : W.Replies d answer)
    (goes : (s.settleOne d.id).Goes W Eq σ acts r τ) :
    Concludes W (s.verdict d answer) d σ r τ := by
  have hfound := Store.drop?_of_mem h.reached.idsDiffer hd
  rcases Program.Goes.triedAlone (saves _)
    (Work.failsOnly_now.ask Work.reads_now fun _ => claim_failsOnly) goes with
    ⟨c, μ, rest, hkept, hasked, -⟩ | ⟨why, ⟨fault, kind⟩, hafter⟩
  · obtain ⟨time, rfl, hclaimed⟩ : ∃ time, c = d.asClaimed time ∧
        μ.store = σ.store.updateDrop d.id (·.asClaimed time) := by
      obtain ⟨claims, hsame⟩ := claims_of_keeps "claim_reactdrop" hkept
      cases claims with
      | claimed found _ left =>
        change _ = d.id at hsame
        rw [← hsame] at hfound
        obtain rfl := Option.some.inj (hfound.symm.trans found)
        exact ⟨_, rfl, left⟩
    have hμ : μ.Contained := by
      refine h.next hkept.step ?_
      rw [hclaimed]
      exact h.bounded
    have hbalance (name : String) : μ.store.balance name = σ.store.balance name := by
      rw [hclaimed]
      rfl
    have hroom {v : Verdict} {name : String} (room : v.HasRoom d σ.store name) :
        v.HasRoom d μ.store name := by
      rwa [Verdict.HasRoom, hbalance]
    have hdrop : ∀ id, μ.store.drop? id =
        if id = d.id then (σ.store.drop? d.id).map (·.asClaimed time) else σ.store.drop? id := by
      rw [hclaimed]
      exact Store.drop?_updateDrop σ.store d.id fun _ => rfl
    have found : μ.store.drop? d.id = some (d.asClaimed time) := by
      rw [hdrop, if_pos rfl, hfound]
      rfl
    obtain ⟨_, reply, more, rfl, hworld, hrest, -⟩ := Program.goes_called.mp hasked
    obtain rfl := replies _ _ hworld
    have hends : Ends W (s.verdict d reply) (d.asClaimed time) μ r τ := by
      cases reply with
      | error why => exact abandon_alone saves hμ found rfl hrest
      | ok reacted =>
        change (s.proceed (d.asClaimed time) reacted).Goes W Eq μ more r τ at hrest
        by_cases nobody : Drop.eligible reacted d.initiator = []
        · rw [proceed_nobody (c := d.asClaimed time) nobody] at hrest
          rw [verdict_nobody nobody]
          exact expire_alone saves hμ found rfl hrest
        · rw [proceed_among (c := d.asClaimed time) rfl nobody] at hrest
          rw [verdict_among rfl nobody]
          exact settle_alone (c := d.asClaimed time) saves hμ found rfl honest nobody
            (Drop.nodup_eligible reacted d.initiator) (Drop.not_mem_eligible reacted d.initiator)
            hrest
    obtain ⟨⟨finished, event, hrow⟩, others, balances, contained, told⟩ := hends
    refine ⟨⟨time, finished, event, hrow⟩, fun id other => ?_, fun name room => ?_, fun room => ?_,
      told⟩
    · rw [others id other, hdrop, if_neg other]
    · rw [← hbalance]
      exact balances name (hroom room)
    · exact contained fun name => hroom (room name)
  · obtain ⟨-, _, given, -⟩ := fault.of_there hfound pending kind
    cases given

end Sweeper
end TipJar
