import TipJar.Proofs.Queues
import TipJar.Proofs.Reports

/-! A sweep and its batch.

What goes wrong with one drop stays with it: whoever does not answer, whatever cannot
be paid and whoever else has come first, the sweep reports it and goes on with the
next drop. Two losses of the store are not reported but end the sweep: that of a
claim, and that of an expiry. The drops behind are left for later, and the reports of
those before are gone. -/
namespace TipJar
open Ledger

/-- Whether nobody asks sweepers to stop. -/
def World.GoesOn (W : World) : Prop := ∀ stop, W _ .stopping stop → stop = false

/-! ### What units of work leave alone -/

namespace Kept
variable {k : Kept} {id : Uuid}

/-- The unit left all drops alone but one. -/
def Minds (k : Kept) (id : Uuid) : Prop :=
  ∀ other, other ≠ id → k.after.store.drop? other = k.before.store.drop? other

/-- The unit moved no value. -/
def Spares (k : Kept) : Prop :=
  k.after.store.accounts = k.before.store.accounts ∧ k.after.store.entries = k.before.store.entries

theorem minds_of_update {f : Drop → Drop} (same : ∀ d, (f d).id = d.id)
    (left : k.after.store = k.before.store.updateDrop id f) : k.Minds id := by
  intro other hother
  rw [left, Store.drop?_updateDrop _ _ same, if_neg hother]

theorem spares_of_update {f : Drop → Drop}
    (left : k.after.store = k.before.store.updateDrop id f) : k.Spares := by
  unfold Spares
  rw [left]
  exact ⟨rfl, rfl⟩

theorem Claims.minds {d : Drop} (h : k.Claims d) : k.Minds d.id := by
  obtain @⟨row, time, -, -, left⟩ := h
  have hminds : k.Minds row.id := by
    refine minds_of_update ?_ left
    exact fun _ => rfl
  exact hminds

theorem Claims.spares {d : Drop} (h : k.Claims d) : k.Spares := by
  obtain ⟨-, -, left⟩ := h
  exact spares_of_update left

theorem Closes.minds {ending : Drop.Ending} (h : k.Closes id ending) : k.Minds id := by
  obtain ⟨-, -, left⟩ := h
  exact minds_of_update (fun d => d.id_closed ending) left

theorem Closes.spares {ending : Drop.Ending} (h : k.Closes id ending) : k.Spares := by
  obtain ⟨-, -, left⟩ := h
  exact spares_of_update left

theorem Pays.minds {d : Drop} {participants : List String} {minimum : Amount}
    {receipt : Transfer.Receipt} (h : k.Pays d participants minimum receipt) : k.Minds d.id := by
  obtain ⟨-, -, -, -, left⟩ := h
  intro other hother
  rw [left, Store.drop?_paidOut, if_neg hother]

theorem Asks.minds (h : k.Asks) (id : Uuid) : k.Minds id := by
  intro other _
  rw [h]

end Kept

namespace Sweeper
variable {W : World} {s : Sweeper} {σ τ : State} {own : List Kept}

/-! ### Members -/

/-- The operations whose loss ends a sweep. -/
def IsFatal (operation : String) : Prop :=
  operation = "claim_reactdrop" ∨ operation = "expire_reactdrop"

/-- An attempt that ends with a report is about its own drop, leaves all others alone, and moves no
value unless it reports a payout. -/
theorem Attempted.reported {id : Uuid} {result : Drop.Result}
    (h : Attempted W s id σ own (.ok result) τ) :
    result.drop = id ∧ (∀ k ∈ own, k.Minds id) ∧
      (result.outcome ≠ .settled → ∀ k ∈ own, k.Spares) := by
  cases h with
  | taken => exact ⟨rfl, List.forall_mem_nil _, fun _ => List.forall_mem_nil _⟩
  | claimed others claims same finished =>
    subst same
    cases finished with
    | paid others pays asks heard later =>
      obtain rfl := heard
      refine ⟨rfl, List.forall_mem_cons.mpr ⟨claims.minds, List.forall_mem_cons.mpr
        ⟨pays.minds, fun q hq => (asks q hq).minds _⟩⟩, fun unpaid => absurd rfl unpaid⟩
    | expired others closes later | failed because others closes later =>
      exact ⟨rfl,
        List.forall_mem_cons.mpr ⟨claims.minds, List.forall_mem_singleton.mpr closes.minds⟩,
        fun _ =>
          List.forall_mem_cons.mpr ⟨claims.spares, List.forall_mem_singleton.mpr closes.spares⟩⟩
    | lost | overtaken | unrecorded =>
      exact ⟨rfl, List.forall_mem_singleton.mpr claims.minds,
        fun _ => List.forall_mem_singleton.mpr claims.spares⟩

/-- An attempt that does not end with a report has lost its claim or its expiry, and has done
nothing but claim the drop. -/
theorem Attempted.ended {id : Uuid} {why : Fault} (h : Attempted W s id σ own (.error why) τ)
    (there : (τ.store.drop? id).isSome) (mentions : W.Mentions) (few : ¬W.Overflows) :
    (∃ operation cause, why = .refused (.unsaved operation cause) ∧ IsFatal operation ∧
        W.Loses operation) ∧
      ∀ k ∈ own, k.Minds id ∧ k.Spares := by
  cases h with
  | missing others absent =>
    rw [absent] at there
    cases there
  | unclaimed loses => exact ⟨⟨_, _, rfl, .inl rfl, loses⟩, List.forall_mem_nil _⟩
  | claimed others claims same finished =>
    subst same
    cases finished with
    | paid others pays asks heard later => exact absurd mentions heard
    | unexpired loses =>
      exact ⟨⟨_, _, rfl, .inr rfl, loses⟩, List.forall_mem_singleton.mpr
        ⟨claims.minds, claims.spares⟩⟩
    | overflown overflows => exact absurd overflows few

/-! ### Batches -/

/-- How the drops of a batch are settled, one after another: each is attempted once and in its turn,
until all have been or an attempt ends the sweep. -/
inductive Batch (W : World) (s : Sweeper) :
    List Drop → State → List Kept → Checked (List Drop.Result) → State → Prop
  | finished {σ τ : State} (others : State.Run σ τ) : Batch W s [] σ [] (.ok []) τ
  | attempted {σ ready left τ : State} {d : Drop} {rest : List Drop} {own more : List Kept}
      {result : Drop.Result} {r : Checked (List Drop.Result)} (others : State.Run σ ready)
      (attempt : (s.settleOne d.id).Plays W ready own (.ok result) left)
      (named : result.drop = d.id) (minds : ∀ k ∈ own, k.Minds d.id)
      (spares : result.outcome ≠ .settled → ∀ k ∈ own, k.Spares)
      (goesOn : Batch W s rest left more r τ) :
      Batch W s (d :: rest) σ (own ++ more) (r.map (result :: ·)) τ
  | cutOff {σ ready left τ : State} {d : Drop} {rest : List Drop} {own : List Kept}
      {operation : String} {cause : StoreFault} (others : State.Run σ ready)
      (attempt : (s.settleOne d.id).Plays W ready own (.error (.refused (.unsaved operation cause)))
        left)
      (fatal : IsFatal operation) (loses : W.Loses operation)
      (harmless : ∀ k ∈ own, k.Minds d.id ∧ k.Spares) (later : State.Run left τ) :
      Batch W s (d :: rest) σ own (.error (.refused (.unsaved operation cause))) τ

theorem Batch.after {ds : List Drop} {r : Checked (List Drop.Result)} {υ : State}
    (h : Batch W s ds τ own r υ) (others : State.Run σ τ) : Batch W s ds σ own r υ := by
  cases h with
  | finished more => exact .finished (others.trans more)
  | attempted more attempt named minds spares goesOn =>
    exact .attempted (others.trans more) attempt named minds spares goesOn
  | cutOff more attempt fatal loses harmless later =>
    exact .cutOff (others.trans more) attempt fatal loses harmless later

theorem Batch.later {ds : List Drop} {r : Checked (List Drop.Result)} {υ : State}
    (h : Batch W s ds σ own r τ) (others : State.Run τ υ) : Batch W s ds σ own r υ := by
  induction h with
  | finished more => exact .finished (more.trans others)
  | attempted more attempt named minds spares _ ih =>
    exact .attempted more attempt named minds spares (ih others)
  | cutOff more attempt fatal loses harmless later =>
    exact .cutOff more attempt fatal loses harmless (later.trans others)

/-- A batch that is finished has one report for every drop, in its order. -/
theorem Batch.reports {ds : List Drop} {results : List Drop.Result} {r : Checked (List Drop.Result)}
    (h : Batch W s ds σ own r τ) (hr : r = .ok results) :
    results.map (·.drop) = ds.map (·.id) := by
  induction h generalizing results with
  | finished =>
    obtain rfl := Except.ok.inj hr
    rfl
  | @attempted _ _ _ _ _ _ _ _ _ r _ _ named _ _ _ ih =>
    cases r with
    | ok more =>
      obtain rfl := Except.ok.inj hr
      rw [List.map_cons, List.map_cons, named, ih rfl]
    | error why => cases hr
  | cutOff => cases hr

/-- A batch that is not finished was cut off by a loss of the store. -/
theorem Batch.cause {ds : List Drop} {why : Fault} {r : Checked (List Drop.Result)}
    (h : Batch W s ds σ own r τ) (hr : r = .error why) :
    ∃ operation cause, why = .refused (.unsaved operation cause) ∧ IsFatal operation ∧
      W.Loses operation := by
  induction h with
  | finished => cases hr
  | @attempted _ _ _ _ _ _ _ _ _ r _ _ _ _ _ _ ih =>
    cases r with
    | ok more => cases hr
    | error other => exact ih hr
  | cutOff _ _ fatal loses =>
    obtain rfl := Except.error.inj hr
    exact ⟨_, _, rfl, fatal, loses⟩

theorem settleEach_plays (honest : s.execute = Ledger.execute) (goesOn : W.GoesOn)
    (mentions : W.Mentions) (few : ¬W.Overflows) {ds : List Drop}
    {r : Checked (List Drop.Result)} (h : σ.Reached) (known : ∀ d ∈ ds, σ.Knows d)
    (play : (s.settleEach ds).Plays W σ own r τ) : Batch W s ds σ own r τ := by
  induction ds generalizing σ own r with
  | nil =>
    obtain ⟨rfl, rfl, rfl⟩ := play
    exact .finished .refl
  | cons d rest ih =>
    obtain ⟨asked, stop, others, hstop, hrest⟩ := play.asked rfl
    obtain rfl := goesOn stop hstop
    have hasked := h.run others
    have hthere (μ : State) (more : State.Run asked μ) : (μ.store.drop? d.id).isSome := by
      obtain ⟨row, found, -⟩ :=
        ((known d List.mem_cons_self).run h (others.trans more)).found (hasked.run more)
      rw [found]
      rfl
    rw [if_neg Bool.false_ne_true] at hrest
    rcases Program.plays_bind.mp hrest with
      ⟨why, hwithin, rfl⟩ | ⟨result, μ, first, second, hwithin, hnext, rfl⟩
    · obtain ⟨ready, left, meanwhile, attempt, later⟩ := hwithin.within
      obtain ⟨⟨operation, cause, rfl, fatal, loses⟩, harmless⟩ :=
        (settleOne_plays honest (hasked.run meanwhile) attempt).ended
          (hthere left (meanwhile.trans attempt.run)) mentions few
      exact .cutOff (others.trans meanwhile) attempt fatal loses harmless later
    · obtain ⟨ready, left, meanwhile, attempt, later⟩ := hwithin.within
      obtain ⟨named, minds, spares⟩ :=
        (settleOne_plays honest (hasked.run meanwhile) attempt).reported
      have hleft := others.trans (meanwhile.trans (attempt.run.trans later))
      have goes (r : Checked (List Drop.Result)) (more : List Kept)
          (hplay : (s.settleEach rest).Plays W μ more r τ) : Batch W s rest left more r τ :=
        (ih (h.run hleft) (fun e he => (known e (List.mem_cons_of_mem _ he)).run h hleft)
          hplay).after later
      rcases Program.plays_bind.mp hnext with
        ⟨why, heach, rfl⟩ | ⟨results, ν, own, _, heach, ⟨rfl, rfl, rfl⟩, rfl⟩
      · exact .attempted (others.trans meanwhile) attempt named minds spares (goes _ _ heach)
      · rw [List.append_nil]
        exact .attempted (others.trans meanwhile) attempt named minds spares (goes _ _ heach)

/-! ### Sweeps -/

theorem eq_of_mapM_readDrop {rows found : List Drop} (h : rows.mapM readDrop = .ok found) :
    found = rows := by
  induction rows generalizing found with
  | nil => exact (Except.ok.inj h).symm
  | cons d rest ih =>
    rw [List.mapM_cons] at h
    cases hd : readDrop d with
    | error why =>
      rw [hd] at h
      cases h
    | ok e =>
      cases hrest : rest.mapM readDrop with
      | error why =>
        rw [hd, hrest] at h
        cases h
      | ok more =>
        rw [hd, hrest] at h
        obtain rfl := Except.ok.inj h
        have hsame : e = d := by
          unfold readDrop at hd
          cases hstatus : d.status.get "ReactdropStatus" with
          | error why =>
            rw [hstatus] at hd
            cases hd
          | ok status =>
            rw [hstatus] at hd
            exact (Except.ok.inj hd).symm
        rw [hsame, ih hrest]

/-- What is found due is a batch of the tables as they are. -/
theorem due_of_keeps {startedAt : Moment} {due : List Drop}
    (h : σ.Keeps (do Work.check ((← findDue startedAt (some s.batch)).mapM readDrop)) due τ) :
    τ.store = σ.store ∧ ∃ asOf, startedAt.IsStoredAs asOf ∧
      due = σ.store.due asOf (some s.batch) := by
  have hasks := h.asks ((reads_findDue _ _).bind fun _ => Work.reads_check)
  obtain ⟨_, desk, after, -, hgives, -, -⟩ := h
  unfold findDue at hgives
  simp only [Work.gives_bind, Work.gives_stored, Work.gives_column, Work.gives_read,
    Work.gives_check] at hgives
  obtain ⟨_, _, ⟨asOf, _, ⟨stored, rfl⟩, _, _, ⟨-, -, rfl⟩, t, ht, rfl, rfl⟩, hread, rfl⟩ := hgives
  obtain rfl := (σ.holds_begun desk).unique ht
  exact ⟨hasks, asOf, stored, eq_of_mapM_readDrop hread⟩

/-- Where nothing is settling for too long, nothing is failed. -/
theorem keeps_failStalled {asOf cutoff utc : Moment} {seconds : Value} {length : Duration}
    (desk : Desk) (hlength : seconds.seconds = .ok length)
    (hcutoff : Checked.inCalendar (asOf.sub? length) = .ok cutoff) (hutc : cutoff.IsStoredAs utc)
    (hnone : σ.store.stalled utc = []) : σ.Keeps (failStalled asOf seconds) [] σ := by
  have hbegun := σ.holds_begun desk
  have hfound : (findStalled asOf seconds).Gives (σ.begun desk) [] (σ.begun desk) :=
    findStalled_gives.mpr ⟨length, cutoff, utc, _, hlength, hcutoff, hutc, hbegun, hnone, rfl⟩
  exact ⟨fun _ => [], desk, σ.begun desk, .inr ⟨.failStalled asOf seconds, trivial, rfl⟩,
    Work.gives_bind.mpr ⟨_, _, hfound, rfl⟩, hbegun, (List.append_nil _).symm⟩

/-- What is due can be read. -/
theorem keeps_due {startedAt asOf : Moment} {due : List Drop} (desk : Desk)
    (timed : startedAt.IsStoredAs asOf) (fits : -columnMax - 1 ≤ s.batch ∧ s.batch ≤ columnMax)
    (hdue : σ.store.due asOf (some s.batch) = due) (hread : due.mapM readDrop = .ok due) :
    σ.Keeps (do Work.check ((← findDue startedAt (some s.batch)).mapM readDrop)) due σ := by
  have hbegun := σ.holds_begun desk
  have hfound : (findDue startedAt (some s.batch)).Gives (σ.begun desk) due (σ.begun desk) := by
    unfold findDue
    simp only [Work.gives_bind, Work.gives_stored, Work.gives_column, Work.gives_read]
    exact ⟨asOf, _, ⟨timed, rfl⟩, ⟨⟩, _, ⟨⟨_, hbegun⟩, fits, rfl⟩, _, hbegun, hdue, rfl⟩
  exact State.keeps_of_reads ((reads_findDue _ _).bind fun _ => Work.reads_check)
    (Work.gives_bind.mpr ⟨_, _, hfound, Work.gives_check.mpr ⟨hread, rfl⟩⟩)

/-- What was asked for and found due at a moment: a batch, each drop in it once, in the order of
deadlines and identifiers. -/
structure Finds (s : Sweeper) (asks : Kept) (asOf : Moment) (due : List Drop) : Prop where
  unchanged : asks.Asks
  found : due = asks.before.store.due asOf (some s.batch)
  once : (due.map (·.id)).Nodup
  ordered : due.Pairwise fun a b => (Store.dropOrder (·.deadline.instant) a b).isLE = true

/-- How a sweep goes. -/
inductive Swept (W : World) (s : Sweeper) : List Kept → Checked Drop.Sweep → State → Prop
  /-- What was interrupted could not be failed, or what is due not be read. Nothing is attempted. -/
  | unread {own : List Kept} {why : Fault} {τ : State} (early : own.length ≤ 1) :
      Swept W s own (.error why) τ
  /-- Every drop that is due is attempted and reported. -/
  | complete {stalled asks : Kept} {asOf : Moment} {due : List Drop} {more : List Kept}
      {pass : Drop.Sweep} {τ : State} (timed : pass.startedAt.IsStoredAs asOf)
      (finds : s.Finds asks asOf due) (batch : Batch W s due asks.after more (.ok pass.results) τ)
      (reported : pass.results.map (·.drop) = due.map (·.id)) :
      Swept W s (stalled :: asks :: more) (.ok pass) τ
  /-- The store loses the claim or the expiry of a drop. The drops behind it are not attempted, and
  nothing is reported. -/
  | cutOff {stalled asks : Kept} {asOf : Moment} {due : List Drop} {more : List Kept}
      {operation : String} {cause : StoreFault} {τ : State} (finds : s.Finds asks asOf due)
      (batch : Batch W s due asks.after more (.error (.refused (.unsaved operation cause))) τ)
      (fatal : IsFatal operation) (loses : W.Loses operation) :
      Swept W s (stalled :: asks :: more) (.error (.refused (.unsaved operation cause))) τ

/-- **One drop's trouble stays its own.** A sweep that nobody stops, and that could fail what was
interrupted and read what is due, attempts every drop of the batch once and in its turn, and reports
each; what it does for one drop changes no other, and moves no value unless the drop is paid out.
Only the loss of a claim or of an expiry ends it earlier. -/
theorem sweep_settles_batch (honest : s.execute = Ledger.execute) (h : σ.Reachable)
    (goesOn : W.GoesOn) (mentions : W.Mentions) (few : ¬W.Overflows) {r : Checked Drop.Sweep}
    (play : s.sweep.Plays W σ own r τ) : Swept W s own r τ := by
  obtain ⟨begun, startedAt, others, -, hstalled⟩ := play.asked rfl
  rcases hstalled.needed with ⟨why, rfl, -, -, rfl⟩ |
    ⟨ready, interrupted, μ, _, meanwhile, hfailed, hdue, rfl⟩
  · exact .unread (Nat.zero_le 1)
  rcases hdue.needed with ⟨why, rfl, -, -, rfl⟩ |
    ⟨found, due, ν, _, between, hread, hbatch, rfl⟩
  · exact .unread (Nat.le_refl 1)
  have hfound := ((h.reached.run (others.trans meanwhile)).run hfailed.run).run between
  obtain ⟨hasks, asOf, timed, rfl⟩ := due_of_keeps hread
  have finds : s.Finds ⟨"find_due_reactdrops", found, ν⟩ asOf
      (found.store.due asOf (some s.batch)) :=
    ⟨hasks, rfl, Store.nodup_due hfound.idsDiffer _ _, found.store.pairwise_due _ _⟩
  have known : ∀ d ∈ found.store.due asOf (some s.batch), ν.Knows d := by
    intro d hd
    refine ⟨d, ?_, .refl⟩
    rw [hasks]
    exact (Store.of_mem_due hd).1
  rcases Program.plays_bind.mp hbatch with
    ⟨why, heach, rfl⟩ | ⟨results, υ, more, last, heach, hlast, rfl⟩
  · have batch := settleEach_plays honest goesOn mentions few (hfound.run hread.run) known heach
    obtain ⟨operation, cause, rfl, fatal, loses⟩ := batch.cause rfl
    exact .cutOff finds batch fatal loses
  · have batch := settleEach_plays honest goesOn mentions few (hfound.run hread.run) known heach
    have hpass : last = [] ∧ .ok ⟨startedAt, results, interrupted.length⟩ = r ∧
        State.Run υ τ := by
      dsimp only at hlast
      split at hlast
      · obtain ⟨_, later, rfl, hr, rfl⟩ := hlast.noted
        exact ⟨rfl, hr, later⟩
      · obtain ⟨rfl, hr, rfl⟩ := hlast
        exact ⟨rfl, hr, .refl⟩
    obtain ⟨rfl, rfl, later⟩ := hpass
    rw [List.append_nil]
    exact .complete timed finds (batch.later later) (batch.reports rfl)

end Sweeper

/-! ### An expiry that is lost

The drop of the small run is due, and nobody took part. -/

/-- A world in which nobody reacts and nobody asks sweepers to stop. Everything else may happen. -/
def World.idle : World := fun _ e b =>
  match e, b with
  | .mention _, .error _ => False
  | .call (.reactions ..) _, .ok reacted => reacted = []
  | .stopping, stop => stop = false
  | _, _ => True

namespace World

theorem goesOn_idle : World.idle.GoesOn := fun _ h => h

theorem mentions_idle : World.idle.Mentions := by
  intro account b h
  cases b with
  | ok markup => exact ⟨markup, rfl⟩
  | error why => exact h.elim

theorem not_overflows_idle : ¬World.idle.Overflows := by
  intro h
  obtain ⟨_, _, _, _, _, rfl, hmany⟩ := h
  exact absurd hmany (by decide)

end World

namespace Sample

/-- A sweeper that takes every settlement for interrupted. -/
def hasty : Sweeper := { sweeper with stalledAfter := .int 0 }

theorem keeps_failStalled :
    created.Keeps (failStalled deadline hasty.stalledAfter) [] created :=
  Sweeper.keeps_failStalled (desk 2) rfl rfl ⟨rfl, rfl⟩ (by decide +kernel)

theorem keeps_due :
    created.Keeps (do Work.check ((← findDue deadline (some hasty.batch)).mapM readDrop))
      [request.row (.ofNat 1) "alice" opening deadline] created :=
  Sweeper.keeps_due (desk 2) ⟨rfl, rfl⟩ (by decide) (by decide +kernel) rfl

def cutOff : List Kept :=
  [⟨"fail_stalled_reactdrops", created, created⟩, ⟨"find_due_reactdrops", created, created⟩,
    ⟨"claim_reactdrop", created, claimed⟩]

def lostExpiry : Fault := .refused (.unsaved "expire_reactdrop" .unreachable)

theorem undoes_expire :
    claimed.Undoes "expire_reactdrop" (do markExpired (.ofNat 1) (← Work.now)) lostExpiry :=
  .inr ⟨_, rfl⟩

theorem plays_lostExpiry :
    (hasty.settleOne (.ofNat 1)).Plays .idle created [⟨"claim_reactdrop", created, claimed⟩]
      (.error lostExpiry) claimed := by
  have hasked : (Program.tryCall (.reactions "town" "m1" "hand")
      (some hasty.lookupLimit)).Plays .idle claimed [] (.ok (.ok [])) claimed :=
    Program.plays_answered rfl rfl
  have hexpire : (Sweeper.expire drop).Plays .idle claimed [] (.error lostExpiry) claimed :=
    .andThen (k := [])
      (Program.plays_attempt.mpr ⟨_, Program.plays_undone undoes_expire trivial, rfl⟩)
      ⟨rfl, rfl, rfl⟩
  exact .andThen (Program.plays_attempt.mpr ⟨_, Program.plays_kept keeps_claimed trivial, rfl⟩)
    (.andThen (k := []) hasked hexpire)

theorem plays_cutOff : hasty.sweep.Plays .idle created cutOff (.error lostExpiry) claimed := by
  have heach : (hasty.settleEach [request.row (.ofNat 1) "alice" opening deadline]).Plays .idle
      created [⟨"claim_reactdrop", created, claimed⟩] (.error lostExpiry) claimed :=
    .andThen (k := []) (a := false) (Program.plays_answered rfl rfl)
      (Program.plays_bind.mpr (.inl ⟨_, plays_lostExpiry.bound .empty trivial trivial, rfl⟩))
  refine .andThen (k := []) (a := deadline) (Program.plays_answered rfl trivial) ?_
  refine .andThen (Program.plays_kept keeps_failStalled trivial) ?_
  refine .andThen (Program.plays_kept keeps_due trivial) ?_
  exact Program.plays_bind.mpr (.inl ⟨_, heach, rfl⟩)

end Sample

/-- The sweep ends with the loss, and reports nothing of the drop that was due. -/
theorem Sweeper.sample_cut_off :
    Sample.hasty.sweep.Plays .idle Sample.created Sample.cutOff (.error Sample.lostExpiry)
        Sample.claimed ∧
      Swept .idle Sample.hasty Sample.cutOff (.error Sample.lostExpiry) Sample.claimed :=
  ⟨Sample.plays_cutOff, sweep_settles_batch rfl Sample.reachable_created World.goesOn_idle
    World.mentions_idle World.not_overflows_idle Sample.plays_cutOff⟩

end TipJar
