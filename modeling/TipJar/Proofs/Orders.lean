import TipJar.Proofs.Sweeps
import TipJar.Proofs.Verdicts

/-! In any order.

Drops of one initiator are paid from one balance, and what one drop pays out may be
what the initiator of another had left to spend. It still makes no difference which of
them is settled first: how each one ends is known beforehand, and what an account has
in the end is what it had and what all of them together move. That takes room in the
columns for all that is gained, since what a full column gains is rounded, and then
the order shows. -/
namespace TipJar
open Ledger

/-- What is fixed about the settlement of a drop: the store loses nothing of it, and the platform
has one answer to who took part. -/
structure World.Fixes (W : World) (d : Drop) (answer : Except CallFault (List String)) : Prop where
  saves : ∀ operation, ¬W.Loses operation
  replies : W.Replies d answer

/-- The rows tell the same of how their drops ended. -/
structure Drop.EndsAs (d e : Drop) : Prop where
  status : d.status = e.status
  reason : d.reason = e.reason
  participants : d.participants = e.participants
  moved : d.moved = e.moved

theorem Verdict.row_endsAs (v : Verdict) (d : Drop) (claimed claimed' time time' : Moment)
    (event event' : Uuid) :
    (v.row (d.asClaimed claimed) time event).EndsAs
      (v.row (d.asClaimed claimed') time' event') := by
  cases v <;> exact ⟨rfl, rfl, rfl, rfl⟩

namespace Sweeper

/-- Drops are settled one after the other by a sweeper that nobody disturbs. Every settlement has a
world and a result of its own. -/
inductive Settles (s : Sweeper) (worlds : Uuid → World) (results : Uuid → Checked Drop.Result) :
    List Drop → State → State → Prop
  | done {σ : State} : Settles s worlds results [] σ σ
  | next {d : Drop} {rest : List Drop} {σ μ τ : State} {acts : List Act}
      (first : (s.settleOne d.id).Goes (worlds d.id) Eq σ acts (results d.id) μ)
      (later : Settles s worlds results rest μ τ) : Settles s worlds results (d :: rest) σ τ

/-- Two ways to settle the same drops come to the same: each drop has ended alike, every account has
the same balance, and the same is told of each drop, if there is a markup for whoever is
mentioned. -/
structure Concur (worlds worlds' : Uuid → World) (results results' : Uuid → Checked Drop.Result)
    (drops : List Drop) (τ τ' : State) : Prop where
  rows : ∀ d ∈ drops, ∃ row row', τ.store.drop? d.id = some row ∧
    τ'.store.drop? d.id = some row' ∧ row.EndsAs row'
  balances : ∀ name, τ.store.balance name = τ'.store.balance name
  told : ∀ d ∈ drops, (worlds d.id).Mentions → (worlds' d.id).Mentions →
    Drop.Result.told (results d.id) = Drop.Result.told (results' d.id)

/-- What an account gains by the settlement of some drops. -/
def gains (s : Sweeper) (answers : Uuid → Except CallFault (List String)) (drops : List Drop)
    (name : String) : Nat :=
  (drops.map fun d => (s.verdict d (answers d.id)).gained d name).sum

/-- What settling some drops leaves. -/
structure Leaves (s : Sweeper) (worlds : Uuid → World)
    (answers : Uuid → Except CallFault (List String)) (results : Uuid → Checked Drop.Result)
    (drops : List Drop) (σ τ : State) : Prop where
  rows : ∀ d ∈ drops, ∃ claimed time event,
    τ.store.drop? d.id = some ((s.verdict d (answers d.id)).row (d.asClaimed claimed) time event)
  others : ∀ id, (∀ d ∈ drops, id ≠ d.id) → τ.store.drop? id = σ.store.drop? id
  balances : ∀ name, (τ.store.balance name).units +
      (drops.map fun d => (s.verdict d (answers d.id)).lost d name).sum =
    (σ.store.balance name).units + s.gains answers drops name
  told : ∀ d ∈ drops, (worlds d.id).Mentions →
    Drop.Result.told (results d.id) = (s.verdict d (answers d.id)).told

variable {s : Sweeper} {W : World} {worlds worlds' : Uuid → World}
  {answers : Uuid → Except CallFault (List String)} {results results' : Uuid → Checked Drop.Result}
  {drops drops' : List Drop} {σ τ τ' : State} {acts : List Act}

/-- No account gains more than the drops are worth. -/
theorem gains_le (s : Sweeper) (answers : Uuid → Except CallFault (List String))
    (drops : List Drop) (name : String) :
    s.gains answers drops name ≤ (drops.map (·.amount.units)).sum :=
  List.sum_le_sum fun d _ => Verdict.gained_le _ d name

/-- Settling drops in a row leaves each of them as it had to end, and moves what all of them
move. -/
theorem Settles.leaves (honest : s.execute = Ledger.execute) (h : σ.Contained)
    (different : (drops.map (·.id)).Nodup)
    (room : ∀ name, ((σ.store.balance name).units + s.gains answers drops name : Nat) ≤ columnMax)
    (pending : ∀ d ∈ drops, d ∈ σ.store.drops ∧ d.has .pending = true)
    (fixed : ∀ d ∈ drops, (worlds d.id).Fixes d (answers d.id))
    (settles : s.Settles worlds results drops σ τ) :
    s.Leaves worlds answers results drops σ τ := by
  induction settles with
  | done => exact ⟨List.forall_mem_nil _, fun _ _ => rfl, fun _ => rfl, List.forall_mem_nil _⟩
  | @next d rest σ μ τ acts first later ih =>
    obtain ⟨hother, hrest⟩ := List.nodup_cons.mp different
    obtain ⟨⟨hd, hpending⟩, hlater⟩ := List.forall_mem_cons.mp pending
    obtain ⟨⟨saves, replies⟩, hfixed⟩ := List.forall_mem_cons.mp fixed
    have hne : ∀ e ∈ rest, e.id ≠ d.id := fun e he hsame =>
      hother (List.mem_map.mpr ⟨e, he, hsame⟩)
    have one := settleOne_alone honest saves h hd hpending replies first
    have hsum (name : String) : s.gains answers (d :: rest) name =
        (s.verdict d (answers d.id)).gained d name + s.gains answers rest name := List.sum_cons
    have hnow (name : String) : (s.verdict d (answers d.id)).HasRoom d σ.store name := by
      have hroom := room name
      rw [hsum] at hroom
      unfold Verdict.HasRoom
      omega
    have hlaterRoom (name : String) :
        ((μ.store.balance name).units + s.gains answers rest name : Nat) ≤ columnMax := by
      have hroom := room name
      have hone := one.balances name (hnow name)
      rw [hsum] at hroom
      omega
    -- the drops that are still to come are untouched so far
    have hthere : ∀ e ∈ rest, e ∈ μ.store.drops ∧ e.has .pending = true := by
      intro e he
      obtain ⟨hmem, hwaits⟩ := hlater e he
      refine ⟨Store.mem_of_drop? _ e.id ?_, hwaits⟩
      rw [one.others e.id (hne e he)]
      exact Store.drop?_of_mem h.reached.idsDiffer hmem
    have more := ih (one.contained hnow) hrest hlaterRoom hthere hfixed
    refine ⟨?_, fun id out => ?_, fun name => ?_, ?_⟩
    · refine List.forall_mem_cons.mpr ⟨?_, more.rows⟩
      rw [more.others d.id fun e he => (hne e he).symm]
      exact one.row
    · obtain ⟨hnot, hrest⟩ := List.forall_mem_cons.mp out
      exact (more.others id hrest).trans (one.others id hnot)
    · have hone := one.balances name (hnow name)
      have hmore := more.balances name
      rw [hsum, List.map_cons, List.sum_cons]
      omega
    · exact List.forall_mem_cons.mpr ⟨one.told, more.told⟩

/-- It makes no difference in which order pending drops are settled, whoever has opened them and
whatever the platform answers, as long as there is room for what is gained by all of them. -/
theorem settling_order_irrelevant (honest : s.execute = Ledger.execute) (h : σ.Contained)
    (reordered : drops.Perm drops') (different : drops.Nodup)
    (room : ∀ name, ((σ.store.balance name).units + s.gains answers drops name : Nat) ≤ columnMax)
    (pending : ∀ d ∈ drops, d ∈ σ.store.drops ∧ d.has .pending = true)
    (fixed : ∀ d ∈ drops,
      (worlds d.id).Fixes d (answers d.id) ∧ (worlds' d.id).Fixes d (answers d.id))
    (first : s.Settles worlds results drops σ τ) (second : s.Settles worlds' results' drops' σ τ') :
    Concur worlds worlds' results results' drops τ τ' := by
  have hids : (drops.map (·.id)).Nodup := by
    refine List.Nodup.map_on (fun d hd e he hsame => ?_) different
    have hfound := Store.drop?_of_mem h.reached.idsDiffer (pending d hd).1
    rw [hsame] at hfound
    exact Option.some.inj (hfound.symm.trans
      (Store.drop?_of_mem h.reached.idsDiffer (pending e he).1))
  have hback {d : Drop} (hd : d ∈ drops') : d ∈ drops := reordered.mem_iff.mpr hd
  have hgained (name : String) : s.gains answers drops' name = s.gains answers drops name :=
    (reordered.symm.map fun d => (s.verdict d (answers d.id)).gained d name).sum_eq
  have left := first.leaves honest h hids room pending fun d hd => (fixed d hd).1
  have left' := second.leaves honest h ((reordered.map _).nodup_iff.mp hids)
    (fun name => hgained name ▸ room name) (fun d hd => pending d (hback hd))
    fun d hd => (fixed d (hback hd)).2
  refine ⟨fun d hd => ?_, fun name => Amount.ext ?_, fun d hd mentions mentions' => ?_⟩
  · obtain ⟨_, _, _, hrow⟩ := left.rows d hd
    obtain ⟨_, _, _, hrow'⟩ := left'.rows d (reordered.mem_iff.mp hd)
    exact ⟨_, _, hrow, hrow', Verdict.row_endsAs ..⟩
  · have hlost := (reordered.map fun d => (s.verdict d (answers d.id)).lost d name).sum_eq
    have hbalance := left.balances name
    have hbalance' := left'.balances name
    rw [hgained] at hbalance'
    omega
  · exact (left.told d hd mentions).trans
      (left'.told d (reordered.mem_iff.mp hd) mentions').symm

end Sweeper

/-! ### Two drops that pay each other

Alice's drop of seven is shared by Bob and Carol, and Bob's drop of four by Alice and
Carol. Whoever is paid out first has the share of the other still to come. -/

/-- A world whose store loses nothing and which has a markup for every mention. Who took part in a
drop depends on nothing but its message. -/
def World.crowded (crowd : String → List String) : World := fun _ e b =>
  match e, b with
  | .chore (.transact ..), .error (.refused (.unsaved ..)) => False
  | .mention _, .error _ => False
  | .call (.reactions _ message _) _, reply => reply = .ok (crowd message)
  | _, _ => True

theorem World.fixes_crowded (crowd : String → List String) (d : Drop) :
    (World.crowded crowd).Fixes d (.ok (crowd d.message)) where
  saves operation h := by
    obtain ⟨_, _, _, hnever⟩ := h
    exact hnever
  replies _ _ hworld := hworld

namespace Sample

def crowd (message : String) : List String :=
  if message = "m1" then guests else ["alice", "carol"]

def hers : Drop := request.row (.ofNat 1) "alice" opening deadline

def returned : DropRequest :=
  { request with initiator := .text "bob", amount := ⟨4⟩, message := "m2" }

def his : Drop := returned.row (.ofNat 3) "bob" opening deadline

/-- Both drops are pending. -/
def waiting : State :=
  (created.perform (.deposit (.text "bob") ⟨5⟩) "deposit" (desk 2)).perform (.create returned)
    "create_reactdrop" (desk 3)

theorem contained_waiting : waiting.Contained :=
  (contained_created.perform (.deposit (.text "bob") ⟨5⟩) "deposit" (desk 2) trivial
    (Store.bounded_of_accounts (by decide +kernel))).perform (.create returned) "create_reactdrop"
    (desk 3) trivial (Store.bounded_of_accounts (by decide +kernel))

theorem balance_waiting_le (name : String) : (waiting.store.balance name).units ≤ (10 : Int) :=
  Store.balance_le_of_accounts (by decide) (by decide +kernel) name

theorem drops_waiting : waiting.store.drops = [hers, his] := by decide +kernel

section Shared
variable {σ : State} {d : Drop} {next : Nat}

/-- A drop is claimed. -/
def underway (σ : State) (d : Drop) (next : Nat) : State :=
  σ.perform (.claim d.id) "claim_reactdrop" (desk next)

/-- A drop is claimed and shared. -/
def shared (σ : State) (d : Drop) (next : Nat) : State :=
  (underway σ d next).perform (.payOut sweeper (d.asClaimed deadline) (crowd d.message))
    "settle_reactdrop" (desk next)

def sharedReceipt (d : Drop) (next : Nat) : Transfer.Receipt :=
  .ofSplit (.ofNat next) (d.payment (crowd d.message)) (d.payment (crowd d.message)).split deadline

def sharedReport (d : Drop) (next : Nat) : Drop.Result :=
  ⟨d.id, .settled, some (sharedReceipt d next), none⟩

def sharedRows (d : Drop) (next : Nat) : List Entry :=
  (desk next).rowsFor (d.payment (crowd d.message)) deadline

theorem of_mem_drops (hd : d ∈ [hers, his]) : d.has .pending = true ∧ crowd d.message ≠ [] ∧
    (∀ name ∈ crowd d.message, IsName name) ∧
    Drop.eligible (crowd d.message) d.initiator = crowd d.message ∧
    sweeper.minimum ≤ d.amount := by
  have hnamed (name other : String) (hname : IsName name) (hother : IsName other) :
      ∀ one ∈ [name, other], IsName one :=
    List.forall_mem_cons.mpr ⟨hname, List.forall_mem_singleton.mpr hother⟩
  rcases List.mem_pair.mp hd with rfl | rfl
  · exact ⟨rfl, by decide, hnamed "bob" "carol" rfl rfl, by decide, by decide⟩
  · exact ⟨rfl, by decide, hnamed "alice" "carol" rfl rfl, by decide, by decide⟩

theorem amount_le (hd : d ∈ [hers, his]) : d.amount.units ≤ 7 := by
  rcases List.mem_pair.mp hd with rfl | rfl <;> decide

theorem underway_eq (h : σ.Reached) (hd : d ∈ [hers, his]) (there : d ∈ σ.store.drops) :
    underway σ d next = ⟨σ.store.updateDrop d.id (·.asClaimed deadline),
      σ.history ++ [.claimed (d.asClaimed deadline)]⟩ :=
  State.perform_claim (Moment.isStoredAs_self rfl) (Store.drop?_of_mem h.idsDiffer there)
    (of_mem_drops hd).1 _

theorem drop?_underway (h : σ.Reached) (hd : d ∈ [hers, his]) (there : d ∈ σ.store.drops) :
    (underway σ d next).store.drop? d.id = some (d.asClaimed deadline) := by
  rw [underway_eq h hd there]
  show (σ.store.updateDrop d.id _).drop? d.id = _
  rw [Store.drop?_updateDrop (f := (·.asClaimed deadline)) _ _ fun _ => rfl, if_pos rfl,
    Store.drop?_of_mem h.idsDiffer there]
  rfl

section Pending
variable (h : σ.Contained) (hd : d ∈ [hers, his]) (there : d ∈ σ.store.drops)
  (fresh : (desk next).IsFresh σ.store ((crowd d.message).length + 1))
include h hd there fresh

/-- Once it is claimed, either drop can be shared, if the desk has identifiers to spare. -/
theorem payOut_underway : ∃ after t, (sweeper.payOut (d.asClaimed deadline) (crowd d.message)).Gives
    ((underway σ d next).begun (desk next)) (sharedReceipt d next) after ∧ after.Holds t ∧
      t.entries = σ.store.entries ++ sharedRows d next := by
  obtain ⟨-, nonempty, named, kept, least⟩ := of_mem_drops hd
  have different := Drop.nodup_eligible (crowd d.message) d.initiator
  have apart := Drop.not_mem_eligible (crowd d.message) d.initiator
  rw [kept] at different apart
  have hrow : (underway σ d next).store.drop? d.id = _ := drop?_underway h.reached hd there
  have hentries : (underway σ d next).store.entries = σ.store.entries := by
    rw [underway_eq h.reached hd there]
    rfl
  have hfresh : ((underway σ d next).begun (desk next)).IsFresh (underway σ d next).store
      ((crowd d.message).length + 1) := by
    refine ⟨fresh.different, ?_⟩
    rw [hentries]
    exact fresh.unused
  have hunderway : (underway σ d next).Contained := by
    refine h.perform (.claim d.id) _ (desk next) trivial ?_
    show (underway σ d next).store.Bounded
    rw [underway_eq h.reached hd there]
    exact h.bounded
  have hbegun := (underway σ d next).holds_begun (desk next)
  have pays : ((underway σ d next).begun (desk next)).CanPay (underway σ d next).store
      ((d.asClaimed deadline).payment (crowd d.message)) sweeper.minimum (some d.id) deadline :=
    hunderway.canPay (Store.mem_of_drop? _ d.id hrow) rfl nonempty different named apart least
      (Moment.isStoredAs_self rfl) hfresh
  refine ⟨_, _, (Ledger.payOut_gives rfl).mpr ⟨_, deadline, _, hbegun, pays, hrow, rfl, rfl, rfl⟩,
    (hbegun.afterTransfer _ _).keep _, ?_⟩
  rw [Store.entries_paidOut, hentries]
  rfl

theorem entries_shared :
    (shared σ d next).store.entries = σ.store.entries ++ sharedRows d next := by
  obtain ⟨after, t, hgives, ht, hentries⟩ := payOut_underway h hd there fresh
  have hwork : (Deed.payOut sweeper (d.asClaimed deadline) (crowd d.message)).work.Gives
      ((underway σ d next).begun (desk next)) [.paidOut d.id (sharedReceipt d next)] after :=
    Work.gives_bind.mpr ⟨_, after, hgives, Work.gives_pure.mpr ⟨rfl, rfl⟩⟩
  rw [shared, State.perform_of_gives hwork ht]
  exact hentries

theorem goes_shared :
    (sweeper.settleOne d.id).Goes (World.crowded crowd) Eq σ
      [.kept ⟨"claim_reactdrop", σ, underway σ d next⟩,
        .called (.reactions d.channel d.message d.token),
        .kept ⟨"settle_reactdrop", underway σ d next, shared σ d next⟩]
      (.ok (sharedReport d next)) (shared σ d next) := by
  have timed : (desk next).now.IsStoredAs deadline := Moment.isStoredAs_self rfl
  have hclaim : σ.Keeps (do Ledger.claim d.id (← Work.now)) (d.asClaimed deadline)
      (underway σ d next) :=
    State.keeps_claim timed (Store.drop?_of_mem h.reached.idsDiffer there) (of_mem_drops hd).1 _
  have hgiven : .claimed (d.asClaimed deadline) ∈ (underway σ d next).history := by
    rw [underway_eq h.reached hd there]
    exact List.mem_append_right _ List.mem_cons_self
  obtain ⟨after, t, hgives, ht, -⟩ := payOut_underway h hd there fresh
  have hpaid : (underway σ d next).Keeps (sweeper.payOut (d.asClaimed deadline) (crowd d.message))
      (sharedReceipt d next) (shared σ d next) :=
    State.keeps_of_perform (.payOut sweeper (d.asClaimed deadline) (crowd d.message))
      ⟨rfl, hgiven⟩ rfl hgives ht _
  have hsettle : (sweeper.settle (d.asClaimed deadline) (crowd d.message)).Goes
      (World.crowded crowd) Eq (underway σ d next)
      [.kept ⟨"settle_reactdrop", underway σ d next, shared σ d next⟩] (.ok (sharedReport d next))
      (shared σ d next) :=
    .andThen (Program.goes_attempt.mpr ⟨_, Program.goes_kept rfl hpaid trivial, rfl⟩)
      (.andThen (k := []) (a := ⟨⟩) (Program.goes_answered (b := ⟨⟩) rfl rfl trivial)
        ⟨rfl, rfl, rfl⟩)
  have hasked : (Program.tryCall (.reactions d.channel d.message d.token)
      (some sweeper.lookupLimit)).Goes (World.crowded crowd) Eq (underway σ d next)
      [.called (.reactions d.channel d.message d.token)] (.ok (.ok (crowd d.message)))
      (underway σ d next) := Program.goes_call rfl rfl
  obtain ⟨-, nonempty, -, kept, -⟩ := of_mem_drops hd
  have hproceed : (sweeper.proceed (d.asClaimed deadline) (crowd d.message)).Goes
      (World.crowded crowd) Eq (underway σ d next)
      [.kept ⟨"settle_reactdrop", underway σ d next, shared σ d next⟩] (.ok (sharedReport d next))
      (shared σ d next) := by
    rw [Sweeper.proceed_among (c := d.asClaimed deadline) kept nonempty]
    exact hsettle
  exact .andThen (Program.goes_attempt.mpr ⟨_, Program.goes_kept rfl hclaim trivial, rfl⟩)
    (.andThen hasked hproceed)

end Pending

end Shared

/-- What is reported if the drops are shared at these desks. -/
def reports (nextHers nextHis : Nat) (id : Uuid) : Checked Drop.Result :=
  .ok (if id = hers.id then sharedReport hers nextHers else sharedReport his nextHis)

def answers (id : Uuid) : Except CallFault (List String) :=
  .ok (crowd (if id = hers.id then "m1" else "m2"))

theorem fixes {d : Drop} (hd : d ∈ [hers, his]) :
    (World.crowded crowd).Fixes d (answers d.id) := by
  rcases List.mem_pair.mp hd with rfl | rfl <;> exact World.fixes_crowded crowd _

/-- One drop after the other is shared. -/
theorem settles_both {d e : Drop} {results : Uuid → Checked Drop.Result}
    (hd : d ∈ [hers, his]) (he : e ∈ [hers, his]) (different : e.id ≠ d.id)
    (first : results d.id = .ok (sharedReport d 8)) (later : results e.id = .ok (sharedReport e 16))
    (fresh : (desk 8).IsFresh waiting.store ((crowd d.message).length + 1))
    (distinct : (desk 16).IsFresh ⟨[], waiting.store.entries ++ sharedRows d 8, []⟩
      ((crowd e.message).length + 1)) :
    sweeper.Settles (fun _ => .crowded crowd) results [d, e] waiting
      (shared (shared waiting d 8) e 16) := by
  have hdrops {d : Drop} (hd : d ∈ [hers, his]) : d ∈ waiting.store.drops := drops_waiting ▸ hd
  have hone := goes_shared contained_waiting hd (hdrops hd) fresh
  have hends := Sweeper.settleOne_alone rfl (fixes hd).saves contained_waiting (hdrops hd)
    (of_mem_drops hd).1 (fixes hd).replies hone
  have hthere : e ∈ (shared waiting d 8).store.drops := by
    refine Store.mem_of_drop? _ e.id ((hends.others e.id different).trans ?_)
    exact Store.drop?_of_mem contained_waiting.reached.idsDiffer (hdrops he)
  have hcontained : (shared waiting d 8).Contained := hends.contained fun name => by
    have hgained := (sweeper.verdict d (answers d.id)).gained_le d name
    have hbalance := balance_waiting_le name
    have hamount := amount_le hd
    unfold Verdict.HasRoom columnMax
    omega
  have hfresh : (desk 16).IsFresh (shared waiting d 8).store ((crowd e.message).length + 1) := by
    refine ⟨distinct.different, ?_⟩
    rw [entries_shared contained_waiting hd (hdrops hd) fresh]
    exact distinct.unused
  exact .next (first ▸ hone) (.next (later ▸ goes_shared hcontained he hthere hfresh) .done)

def hersFirst : State := shared (shared waiting hers 8) his 16

def hisFirst : State := shared (shared waiting his 8) hers 16

theorem settles_hersFirst : sweeper.Settles (fun _ => .crowded crowd) (reports 8 16) [hers, his]
    waiting hersFirst :=
  settles_both List.mem_cons_self (List.mem_pair.mpr (.inr rfl)) (by decide) rfl rfl
    ⟨by decide +kernel, by decide +kernel⟩ ⟨by decide +kernel, by decide +kernel⟩

theorem settles_hisFirst : sweeper.Settles (fun _ => .crowded crowd) (reports 16 8) [his, hers]
    waiting hisFirst :=
  settles_both (List.mem_pair.mpr (.inr rfl)) List.mem_cons_self (by decide) rfl rfl
    ⟨by decide +kernel, by decide +kernel⟩ ⟨by decide +kernel, by decide +kernel⟩

end Sample

/-- Both drops are shared, whoever comes first, and the balances are the same. -/
theorem Sweeper.sample_order_irrelevant :
    Sample.sweeper.Settles (fun _ => .crowded Sample.crowd) (Sample.reports 8 16)
        [Sample.hers, Sample.his] Sample.waiting Sample.hersFirst ∧
      Sample.sweeper.Settles (fun _ => .crowded Sample.crowd) (Sample.reports 16 8)
        [Sample.his, Sample.hers] Sample.waiting Sample.hisFirst ∧
      Concur (fun _ => .crowded Sample.crowd) (fun _ => .crowded Sample.crowd) (Sample.reports 8 16)
        (Sample.reports 16 8) [Sample.hers, Sample.his] Sample.hersFirst Sample.hisFirst := by
  have pending : ∀ d ∈ [Sample.hers, Sample.his],
      d ∈ Sample.waiting.store.drops ∧ d.has .pending = true := fun d hd =>
    ⟨Sample.drops_waiting ▸ hd, (Sample.of_mem_drops hd).1⟩
  have room (name : String) : ((Sample.waiting.store.balance name).units +
      Sample.sweeper.gains Sample.answers [Sample.hers, Sample.his] name : Nat) ≤ columnMax := by
    have hbalance := Sample.balance_waiting_le name
    have hgained := Sample.sweeper.gains_le Sample.answers [Sample.hers, Sample.his] name
    change _ ≤ 11 at hgained
    unfold columnMax
    omega
  exact ⟨Sample.settles_hersFirst, Sample.settles_hisFirst,
    settling_order_irrelevant rfl Sample.contained_waiting (.swap ..) (by decide) room pending
      (fun d hd => ⟨Sample.fixes hd, Sample.fixes hd⟩) Sample.settles_hersFirst
      Sample.settles_hisFirst⟩

end TipJar
