import TipJar.Proofs.Commands
import TipJar.Proofs.Reports

/-! Asking for too much.

Amounts are as large as anyone cares to write them, and a column is not. A drop is
compared with what its initiator can spend before any column sees it, so it is
refused for lack of funds however large it is. A tip is compared by the store, which
is handed the sum first: one that no column can hold fails there, and what comes
back is not a refusal. Either way nothing is written. All of this is said of authors
whose own balance and holds fit their columns; with those that do not the store no
longer compares exactly. -/
namespace TipJar
open Ledger

namespace Ledger
variable {s : Store} {P : Fault → Prop}

/-! ### Units of work that cannot succeed -/

/-- What comes back when more is to move than a source can spend. -/
def overdraft (source : String) (total available : Amount) : Fault :=
  if total.units ≤ columnMax then .refused (.insufficientFunds source total available)
  else .beyond .stored

theorem overdraft_ne_store {source : String} {total available : Amount} (cause : StoreFault) :
    overdraft source total available ≠ .store cause := by
  unfold overdraft
  split <;> nofun

section Transfers
variable {i : Transfer.Intent} {minimum : Amount} {except : Option Uuid}

/-- What cannot be spent is not covered. -/
theorem not_covers_of_short {name : String} {amount : Amount}
    (fits : (s.balance name).units ≤ columnMax) (short : (s.view name except).available < amount) :
    ¬s.Covers name except amount := by
  have hshort : (s.view name except).available.units < amount.units := short
  rw [Balance.units_available] at hshort
  change (s.balance name).units - (s.held name except).units < _ at hshort
  rw [Store.covers_iff_of_fits except fits]
  omega

theorem execute_overdrawn (proper : i.check minimum = .ok ())
    (named : ∀ name ∈ i.source :: i.destinations, IsName name) (counts : s.Counts i.source except)
    (short : (s.view i.source except).available < i.split.moved) :
    (execute i minimum except).FailsOnly s
      (· = overdraft i.source i.split.moved (s.view i.source except).available) := by
  refine execute_failsOnly.imp fun why fault => ?_
  cases fault with
  | improper improper => cases proper.symm.trans improper
  | unrecorded _ covered => exact absurd covered (not_covers_of_short counts.balance short)
  | denied _ denial =>
    unfold overdraft
    cases denial with
    | nobody none => exact absurd none (Transfer.Intent.check_ok.mp proper).1
    | unnamed _ party unnamed => exact absurd (named _ party) unnamed
    | oversized large => exact (if_neg (Int.not_le.mpr large)).symm
    | overflowed _ large => exact absurd counts.held (Int.not_le.mpr large)
    | uncovered fits => exact (if_pos fits).symm

theorem not_gives_overdrawn {desk after : Desk} {receipt : Transfer.Receipt} (hs : desk.Holds s)
    (fits : (s.balance i.source).units ≤ columnMax)
    (short : (s.view i.source except).available < i.split.moved) :
    ¬(execute i minimum except).Gives desk receipt after := by
  intro h
  obtain ⟨t, utc, ht, pays, -⟩ := execute_gives.mp h
  obtain rfl := hs.unique ht
  exact not_covers_of_short fits short pays.covered

end Transfers

theorem lockOne_failsOnly {name : String} (named : IsName name) :
    (lockOne (.text name)).FailsOnly s P :=
  (ensure_failsOnly fun why herror => by cases named.symm.trans herror).bind
    fun _ _ _ hs h => by
      obtain ⟨_, _, _, _, _, rfl⟩ := ensure_gives.mp h
      exact ⟨_, hs.keep _, Work.failsOnly_pure⟩

/-- Whoever is not on the list may act. -/
theorem requireAllowed_failsOnly {name : String} (allowed : (s.settings name).2 = false) :
    (requireAllowed (.text name)).FailsOnly s P := by
  have hlisted : ((s.account? name).map (·.blacklisted)).getD false = false := by
    unfold Store.settings at allowed
    cases haccount : s.account? name with
    | none => rfl
    | some account =>
      rw [haccount] at allowed
      exact allowed
  have hkey : lookupKey (.text name) = .ok (some name) := lookupKey_of_text rfl
  refine Work.failsOnly_of_gives fun desk hs =>
    ⟨⟨⟩, desk, Work.gives_bind.mpr ⟨false, desk, ?_, ?_⟩⟩
  · exact Work.gives_bind.mpr ⟨some name, desk, Work.gives_check.mpr ⟨hkey, rfl⟩,
      Work.gives_read.mpr ⟨s, hs, hlisted, rfl⟩⟩
  · exact Work.gives_pure.mpr ⟨rfl, rfl⟩

section Funds
variable {name : String} {amount : Amount}

theorem checkAvailable_overdrawn (named : IsName name)
    (summed : (s.held name none).units ≤ columnMax)
    (short : (s.view name none).available < amount) :
    (checkAvailable (.text name) amount).FailsOnly s
      (· = .refused (.insufficientFunds name amount (s.view name none).available)) := by
  refine (lockOne_failsOnly named).bind fun desk u mid hs h => ?_
  obtain ⟨t, other, ht, hname, rfl⟩ := lockOne_gives.mp h
  obtain rfl := hs.unique ht
  obtain rfl := Except.ok.inj (named.symm.trans hname)
  have hheld : (s.withAccount name).held name none = s.held name none :=
    Store.held_congr name none (s.drops_withAccount name)
  refine ⟨_, hs.keep _, (viewOf_failsOnly named fun large => ?_).bind fun desk view mid hs h => ?_⟩
  · exact absurd summed (Int.not_le.mpr (hheld ▸ large))
  obtain ⟨t, other, ht, hother, -, rfl, rfl⟩ := viewOf_gives.mp h
  obtain rfl := hs.unique ht
  obtain rfl := Except.ok.inj (named.symm.trans hother)
  refine ⟨_, hs.keep _, ?_⟩
  rw [s.view_withAccount, if_pos short]
  exact (Work.failsOnly_refuse (P := (· = _)) rfl).bind fun _ _ _ _ h => absurd h Work.gives_refuse

theorem not_gives_checkAvailable {desk after : Desk} {available : Amount} (hs : desk.Holds s)
    (named : IsName name) (short : (s.view name none).available < amount) :
    ¬(checkAvailable (.text name) amount).Gives desk available after := by
  intro h
  obtain ⟨t, other, ht, hname, -, enough, -⟩ := checkAvailable_gives.mp h
  obtain rfl := hs.unique ht
  obtain rfl := Except.ok.inj (named.symm.trans hname)
  exact enough short

end Funds

end Ledger

namespace State
variable {σ : State}

/-- A transfer that its source cannot pay is undone, at whatever desk. -/
theorem transact_overdrawn {i : Transfer.Intent} {minimum : Amount} {except : Option Uuid}
    (proper : i.check minimum = .ok ())
    (named : ∀ name ∈ i.source :: i.destinations, IsName name)
    (counts : σ.store.Counts i.source except)
    (short : (σ.store.view i.source except).available < i.split.moved) (desk : Desk)
    (operation : String) :
    ∃ after, (σ.begun desk).transact operation (execute i minimum except) =
      (.error (overdraft i.source i.split.moved (σ.store.view i.source except).available),
        after) := by
  obtain ⟨_, after, hundone, rfl⟩ := transact_begun_fails
    (execute_overdrawn proper named counts short)
    (fun _ _ => not_gives_overdrawn (σ.holds_begun desk) counts.balance short)
    (fun cause heq => overdraft_ne_store cause heq.symm) operation
  exact ⟨after, hundone⟩

end State

namespace Tipping
variable {t : Tipping} {W : World} {σ τ : State} {acts : List Act} {author channel : String}

/-! ### Tips -/

/-- How a tip ends that its author cannot pay: nothing was written and nobody was told. -/
structure Overdrawn (σ : State) (author : String) (total : Amount) (acts : List Act)
    (r : Checked Tip) (τ : State) : Prop where
  failed : r = .error (overdraft author total (σ.store.view author none).available)
  unchanged : τ.store = σ.store
  asks : ∀ k ∈ Act.units acts, k.Asks
  silent : ∀ c, .called c ∈ acts → ¬c.IsMessage

theorem overdrawn_settle (honest : t.execute = Ledger.execute)
    (saves : ∀ operation, ¬W.Loses operation) {i : Transfer.Intent} {minimum : Amount}
    {r : Checked Tip} (proper : i.check minimum = .ok ())
    (named : ∀ name ∈ i.source :: i.destinations, IsName name)
    (counts : σ.store.Counts i.source none)
    (short : (σ.store.view i.source none).available < i.split.moved)
    (goes : (t.settle i channel minimum).Goes W Eq σ acts r τ) :
    Overdrawn σ i.source i.split.moved acts r τ := by
  unfold settle at goes
  rw [honest] at goes
  rcases goes.neededAlone (saves _) (execute_overdrawn proper named counts short) with
    ⟨_, rfl, ⟨rfl, -⟩, rfl, rfl⟩ | ⟨receipt, μ, rest, hkept, -⟩
  · exact ⟨rfl, rfl, fun k hk => absurd hk List.not_mem_nil, fun c hc => absurd hc List.not_mem_nil⟩
  · obtain ⟨_, desk, after, -, hgives, -⟩ := hkept
    exact absurd hgives (not_gives_overdrawn (σ.holds_begun desk) counts.balance short)

/-- The checks that come first let the author through, and only ask. -/
theorem overdrawn_asRequest {command : Program Tip} {minimum amount total : Amount}
    {r : Checked Tip} (saves : ∀ operation, ¬W.Loses operation)
    (allowed : (σ.store.settings author).2 = false) (least : minimum ≤ amount)
    (rest : ∀ {μ more}, μ.store = σ.store → command.Goes W Eq μ more r τ →
      Overdrawn μ author total more r τ)
    (goes : (asRequest author do
      requireAllowed author
      requireMinimum amount minimum
      command).Goes W Eq σ acts r τ) : Overdrawn σ author total acts r τ := by
  obtain ⟨_, _, rfl, -, hbound⟩ := (Program.goes_asked rfl).mp goes
  obtain ⟨_, _, rfl, hchecked, rfl⟩ := Program.Goes.within hbound
  have hallowed : (Ledger.requireAllowed (.text author)).FailsOnly σ.store fun _ => False :=
    requireAllowed_failsOnly allowed
  rcases hchecked.neededAlone (saves _) hallowed with
    ⟨_, -, ⟨hnever, -⟩, -⟩ | ⟨_, μ, more, hkept, hrest, rfl⟩
  · exact absurd hnever id
  · have hsame : μ.store = σ.store := hkept.asks (reads_requireAllowed _)
    rw [requireMinimum, if_neg (show ¬amount < minimum from Nat.not_lt.mpr least)] at hrest
    obtain ⟨failed, unchanged, asks, silent⟩ := rest hsame hrest
    rw [hsame] at failed unchanged
    refine ⟨failed, unchanged, List.forall_mem_cons.mpr ⟨hsame, asks⟩, fun c hc => ?_⟩
    rcases List.mem_cons.mp hc with hnever | hc
    · cases hnever
    · exact silent c hc

/-- A tip that passes every check but asks for more than its author can spend fails, writes nothing
and tells nobody, as long as the author's balance and holds fit their columns. It is refused for
lack of funds, with what would have moved and what can be spent, unless what would have moved is
more than a column can hold. -/
theorem overdrawn_tips_fail (honest : t.execute = Ledger.execute)
    (saves : ∀ operation, ¬W.Loses operation) (named : IsName author)
    (allowed : (σ.store.settings author).2 = false) (counts : σ.store.Counts author none) :
    (∀ channel recipient amount acts r τ, IsName recipient → recipient ≠ author →
      t.minimumTip ≤ amount → (σ.store.view author none).available < amount →
      (t.tipAccount author channel recipient amount).Goes W Eq σ acts r τ →
        Overdrawn σ author amount acts r τ) ∧
    ∀ channel role members amount acts r τ,
      (∀ answer, W _ (.call (.members role) none) answer → answer = .ok members) →
      (∃ name ∈ members, name ≠ author) → (∀ name ∈ members, IsName name) →
      t.minimumRoleTip ≤ amount →
      (σ.store.view author none).available <
        (Transfer.Split.of amount (Drop.eligible members author).length).moved →
      (t.tipRole author channel role amount).Goes W Eq σ acts r τ →
        Overdrawn σ author (Transfer.Split.of amount (Drop.eligible members author).length).moved
          acts r τ := by
  have hview {μ : State} (same : μ.store = σ.store) :
      (μ.store.view author none).available = (σ.store.view author none).available := by rw [same]
  have hcounts {μ : State} (same : μ.store = σ.store) : μ.store.Counts author none :=
    same.symm ▸ counts
  constructor
  · intro channel recipient amount acts r τ hrecipient apart least short goes
    have hmoved : (Transfer.Split.of amount [recipient].length).moved = amount :=
      Amount.ext ((Nat.mul_one _).trans (Nat.div_one _))
    refine overdrawn_asRequest saves allowed least (fun {μ more} same hsettle => ?_) goes
    rw [← hmoved]
    refine overdrawn_settle honest saves (i := ⟨author, [recipient], amount, .direct⟩) ?_ ?_
      (hcounts same) ?_ hsettle
    · exact Transfer.Intent.check_ok.mpr ⟨List.cons_ne_nil _ _, List.nodup_singleton _,
        fun h => apart (List.mem_singleton.mp h).symm, least⟩
    · exact List.forall_mem_cons.mpr ⟨named, List.forall_mem_singleton.mpr hrecipient⟩
    · show (μ.store.view author none).available < (Transfer.Split.of amount [recipient].length).moved
      rw [hview same, hmoved]
      exact short
  · intro channel role members amount acts r τ hanswer hsome hmembers least short goes
    refine overdrawn_asRequest saves allowed least (fun {μ more} same hcalled => ?_) goes
    obtain ⟨_, answer, rest, rfl, hworld, hsettle, rfl⟩ := Program.goes_called.mp hcalled
    obtain rfl := hanswer _ hworld
    obtain ⟨name, hname, hother⟩ := hsome
    have hdestinations : ∀ name ∈ Drop.eligible members author, IsName name :=
      fun name h => hmembers name (Drop.mem_eligible.mp h).1
    obtain ⟨failed, unchanged, asks, silent⟩ := overdrawn_settle honest saves
      (i := ⟨author, Drop.eligible members author, amount, .role⟩)
      (Transfer.Intent.check_ok.mpr
        ⟨List.ne_nil_of_mem (Drop.mem_eligible.mpr ⟨hname, hother⟩), Drop.nodup_eligible _ _,
          Drop.not_mem_eligible _ _, least⟩)
      (List.forall_mem_cons.mpr ⟨named, hdestinations⟩) (hcounts same) (hview same ▸ short) hsettle
    refine ⟨failed, unchanged, asks, fun c hc => ?_⟩
    rcases List.mem_cons.mp hc with h | hc
    · obtain rfl := Act.called.inj h
      exact id
    · exact silent c hc

end Tipping

/-! ### One unit more than a column can hold

Alice has ten units and tips Bob with the first number that is too large. -/

namespace Sample

def hugeIntent : Transfer.Intent := ⟨"alice", ["bob"], ⟨0x8000000000000000⟩, .direct⟩

theorem undoes_huge :
    funded.Undoes "direct_tip" (Ledger.execute hugeIntent ⟨1⟩ none) (.beyond .stored) := by
  have hnames : ∀ name ∈ ["alice", "bob"], IsName name := by
    intro name hname
    rcases List.mem_pair.mp hname with rfl | rfl <;> rfl
  have hproper : hugeIntent.check ⟨1⟩ = .ok () :=
    Transfer.Intent.check_ok.mpr ⟨by decide, by decide, by decide, by decide⟩
  have hshort : (funded.store.view "alice" none).available < hugeIntent.split.moved := by
    decide +kernel
  have hlarge : ¬(hugeIntent.split.moved.units : Int) ≤ columnMax := by decide +kernel
  obtain ⟨after, hundone⟩ := State.transact_overdrawn hproper hnames
    (contained_funded.counts "alice" none) hshort (desk 1) "direct_tip"
  rw [overdraft, if_neg hlarge] at hundone
  exact .inl ⟨desk 1, after, hundone⟩

theorem goes_huge :
    (tipping.tipAccount "alice" "town" "bob" ⟨0x8000000000000000⟩).Goes .lossless Eq funded
      [.kept ⟨"check_blacklist", funded, funded⟩] (.error (.beyond .stored)) funded := by
  have hallowed : (Tipping.requireAllowed "alice").Goes .lossless Eq funded
      [.kept ⟨"check_blacklist", funded, funded⟩] (.ok ⟨⟩) funded :=
    Program.goes_kept rfl keeps_unlisted trivial
  have hundone : (Program.transact "direct_tip" (Ledger.execute hugeIntent ⟨1⟩ none)).Goes .lossless
      Eq funded [] (.error (.beyond .stored)) funded :=
    Program.goes_undone rfl undoes_huge trivial
  refine .andThen (k := []) (a := .ofNat 9) (Program.goes_answered rfl rfl trivial) ?_
  refine Program.Goes.bound ?_ .empty (fun _ => rfl) trivial trivial
  refine .andThen hallowed (.andThen (k := []) ⟨rfl, rfl, rfl⟩ ?_)
  exact Program.goes_bind.mpr (.inl ⟨_, hundone, rfl⟩)

end Sample

/-- Alice is not told that she has ten units: the number that she asked for is beyond the store. -/
theorem Tipping.sample_overdrawn :
    (Sample.tipping.tipAccount "alice" "town" "bob" ⟨0x8000000000000000⟩).Goes .lossless Eq
        Sample.funded [.kept ⟨"check_blacklist", Sample.funded, Sample.funded⟩]
        (.error (.beyond .stored)) Sample.funded ∧
      (Sample.funded.store.view "alice" none).available = ⟨10⟩ ∧
      Overdrawn Sample.funded "alice" ⟨0x8000000000000000⟩
        [.kept ⟨"check_blacklist", Sample.funded, Sample.funded⟩] (.error (.beyond .stored))
        Sample.funded := by
  have honest : Sample.tipping.execute = Ledger.execute := rfl
  have havailable : (Sample.funded.store.view "alice" none).available = ⟨10⟩ := by decide +kernel
  have hallowed : (Sample.funded.store.settings "alice").2 = false := by decide +kernel
  have hleast : Sample.tipping.minimumTip ≤ ⟨0x8000000000000000⟩ := by decide
  have halice : IsName "alice" := rfl
  have hbob : IsName "bob" := rfl
  have hshort : (Sample.funded.store.view "alice" none).available < ⟨0x8000000000000000⟩ := by
    rw [havailable]
    decide
  have hcounts := Sample.contained_funded.counts "alice" none
  exact ⟨Sample.goes_huge, havailable, (overdrawn_tips_fail honest World.not_loses_lossless halice
    hallowed hcounts).1 _ _ _ _ _ _ hbob (by decide) hleast hshort Sample.goes_huge⟩

end TipJar
