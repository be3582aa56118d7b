import TipJar.Config.Parser
import TipJar.Proofs.Deliveries
import TipJar.Proofs.Sweeps
import TipJar.Wiring

/-! The least amounts.

A drop has a least amount of its own, and it is checked when the drop is started.
When it is paid out the least tip is checked again, although the shares are no tips.
So a drop between the two least amounts can be started but never be paid out. -/
namespace TipJar
open Ledger

/-! ### Drops that were started -/

/-- A drop is among the rows, perhaps further on in its life. -/
def State.Has (σ : State) (id : Uuid) (amount : Amount) : Prop :=
  ∃ d, σ.Knows d ∧ d.id = id ∧ d.amount = amount

theorem State.Has.run {σ τ : State} {id : Uuid} {amount : Amount} (h : σ.Reached)
    (has : σ.Has id amount) (more : Run σ τ) : τ.Has id amount := by
  obtain ⟨d, known, hid, hamount⟩ := has
  exact ⟨d, known.run h more, hid, hamount⟩

/-- Whatever row has the identifier has the amount. -/
theorem State.Has.amount {σ : State} {id : Uuid} {amount : Amount} {row : Drop} (h : σ.Reached)
    (has : σ.Has id amount) (found : σ.store.drop? id = some row) : row.amount = amount := by
  obtain ⟨d, known, rfl, rfl⟩ := has
  obtain ⟨other, hother, hturns⟩ := known.found h
  obtain rfl := Option.some.inj (found.symm.trans hother)
  exact hturns.same.2.2

theorem State.Keeps.has {σ τ : State} {r : DropRequest} {drop : Drop}
    (h : σ.Keeps (createDrop r) drop τ) : τ.Has drop.id r.amount ∧ drop.amount = r.amount := by
  obtain ⟨_, desk, after, -, hgives, hτ, -⟩ := h
  obtain ⟨s, initiator, openedAt, deadline, hs, -, rfl, rfl⟩ := createDrop_gives.mp hgives
  have hstore := hτ.unique (hs.afterCreate r initiator _)
  refine ⟨⟨r.row _ initiator openedAt deadline, ⟨_, ?_, .refl⟩, rfl, rfl⟩, rfl⟩
  rw [hstore]
  exact List.mem_append_right _ List.mem_cons_self

namespace Tipping
variable {W : World} {t : Tipping} {σ τ : State} {own : List Kept}

theorem keep_plays {r : DropRequest} {drop : Drop}
    (play : (keep r).Plays W σ own (.ok drop) τ) :
    τ.Has drop.id r.amount ∧ drop.amount = r.amount := by
  obtain ⟨ready, others, ⟨created, left, rest, hkept, ⟨-, hsame, rfl⟩, -⟩ |
    ⟨why, -, -, hrest⟩⟩ := play.tried
  · obtain rfl := Except.ok.inj hsame
    exact hkept.has
  · dsimp only at hrest
    split at hrest
    · obtain ⟨_, -, -, hnever, -⟩ := hrest.noted
      cases hnever
    · obtain ⟨-, hnever, -⟩ := hrest
      cases hnever

theorem requireMinimum_plays {amount minimum : Amount} {u : Unit}
    (play : (requireMinimum amount minimum).Plays W σ own (.ok u) τ) : minimum ≤ amount := by
  unfold requireMinimum at play
  split at play
  · obtain ⟨-, hnever, -⟩ := play
    cases hnever
  · next least => exact Nat.le_of_not_lt least

/-- A drop that was started is no smaller than the least drop, and is there. -/
theorem startDrop_plays {author channel token : String} {amount : Amount}
    {duration unit : Value} {started : DropStarted} (h : σ.Reached)
    (play : (t.startDrop author channel token amount duration unit).Plays W σ own (.ok started)
      τ) :
    t.minimumDrop ≤ started.drop.amount ∧ τ.Has started.drop.id started.drop.amount := by
  obtain ⟨asked, request, others, -, hrest⟩ := play.asked rfl
  obtain ⟨begun, ended, more, hbody, later⟩ := hrest.within
  obtain ⟨_, σ₁, _, _, hallowed, hbody, -⟩ := hbody.split
  obtain ⟨_, σ₂, _, _, hleast, hbody, -⟩ := hbody.split
  obtain ⟨openedAt, σ₃, _, _, hnow, hbody, -⟩ := hbody.split
  obtain ⟨deadline, σ₄, _, _, hdeadline, hbody, -⟩ := hbody.split
  obtain ⟨usable, σ₅, _, _, husable, hbody, -⟩ := hbody.split
  cases usable with
  | false =>
    obtain ⟨-, hnever, -⟩ := hbody
    cases hnever
  | true =>
    obtain ⟨_, σ₆, _, _, hfunds, hbody, -⟩ := hbody.split
    obtain ⟨_, σ₇, _, _, hwritten, hbody, -⟩ := hbody.split
    obtain ⟨_, σ₈, _, _, hannounced, hbody, -⟩ := hbody.split
    obtain ⟨_, σ₉, _, _, hseeded, hbody, -⟩ := hbody.split
    obtain ⟨drop, kept, _, _, hkept, ⟨-, hstarted, rfl⟩, -⟩ := hbody.split
    obtain rfl := Except.ok.inj hstarted
    obtain ⟨has, hamount⟩ := keep_plays hkept
    have hrun := others.trans <| more.trans <| hallowed.run.trans <| hleast.run.trans <|
      hnow.run.trans <| hdeadline.run.trans <| husable.run.trans <| hfunds.run.trans <|
      hwritten.run.trans <| hannounced.run.trans <| hseeded.run.trans hkept.run
    dsimp only
    rw [hamount]
    exact ⟨requireMinimum_plays hleast, has.run (h.run hrun) later⟩

end Tipping

/-! ### Drops that are swept -/

namespace Sweeper
variable {W : World} {s : Sweeper} {σ τ : State} {own : List Kept}

/-- What a batch reports is what came of an attempt to settle the drop. -/
theorem settleEach_reports {ds : List Drop} {results : List Drop.Result}
    (play : (s.settleEach ds).Plays W σ own (.ok results) τ) :
    ∀ result ∈ results, ∃ (d : Drop) (ready left : State) (part : List Kept), State.Run σ ready ∧
      (s.settleOne d.id).Plays W ready part (.ok result) left := by
  induction ds generalizing σ own results τ with
  | nil =>
    obtain ⟨-, hresults, -⟩ := play
    obtain rfl := Except.ok.inj hresults
    exact List.forall_mem_nil _
  | cons d rest ih =>
    obtain ⟨asked, stop, others, -, hrest⟩ := play.asked rfl
    cases stop with
    | true =>
      obtain ⟨-, hresults, -⟩ := hrest
      obtain rfl := Except.ok.inj hresults
      exact List.forall_mem_nil _
    | false =>
      obtain ⟨result, μ, _, _, hwithin, hrest, -⟩ := hrest.split
      obtain ⟨ready, left, more, attempt, later⟩ := hwithin.within
      obtain ⟨more', ν, _, _, heach, ⟨-, hresults, -⟩, -⟩ := hrest.split
      obtain rfl := Except.ok.inj hresults
      refine List.forall_mem_cons.mpr ⟨⟨d, ready, left, _, others.trans more, attempt⟩, ?_⟩
      intro other hother
      obtain ⟨e, ready', left', part, meanwhile, hattempt⟩ := ih heach other hother
      exact ⟨e, ready', left', part, (others.trans hwithin.run).trans meanwhile, hattempt⟩

theorem sweep_reports {pass : Drop.Sweep} (play : s.sweep.Plays W σ own (.ok pass) τ) :
    ∀ result ∈ pass.results, ∃ (d : Drop) (ready left : State) (part : List Kept),
      State.Run σ ready ∧ (s.settleOne d.id).Plays W ready part (.ok result) left := by
  obtain ⟨startedAt, σ₁, _, _, hnow, hrest, -⟩ := play.split
  obtain ⟨interrupted, σ₂, _, _, hfailed, hrest, -⟩ := hrest.split
  obtain ⟨due, σ₃, _, _, hdue, hrest, -⟩ := hrest.split
  obtain ⟨results, σ₄, _, _, heach, hlast, -⟩ := hrest.split
  have hpass : pass.results = results := by
    dsimp only at hlast
    split at hlast
    · obtain ⟨_, -, -, hpass, -⟩ := hlast.noted
      rw [← Except.ok.inj hpass]
    · obtain ⟨-, hpass, -⟩ := hlast
      rw [← Except.ok.inj hpass]
  rw [hpass]
  intro result hresult
  obtain ⟨d, ready, left, part, more, attempt⟩ := settleEach_reports heach result hresult
  exact ⟨d, ready, left, part,
    hnow.run.trans (hfailed.run.trans (hdue.run.trans more)), attempt⟩

theorem eq_of_toLower_code {c : Category} (h : c.code.toLower = "below_minimum") :
    c = .belowMinimum := by
  have hlist : c.code.toList.map Char.toLower = "below_minimum".toList := by
    rw [← h, toList_toLower]
  cases c with
  | belowMinimum => rfl
  | _ => exact absurd hlist (by decide)

/-- Only what is below the least amount of the sweeper is failed for that. -/
theorem Trouble.small {d : Drop} (h : s.Trouble d "below_minimum") : d.amount < s.minimum := by
  generalize hreason : "below_minimum" = reason at h
  cases h with
  | unanswered | unsaved => exact absurd hreason (by decide)
  | refused validation small => exact small (eq_of_toLower_code hreason.symm)

/-- An attempt fails a drop for being too small only if it is below the least amount of the sweeper,
and pays it out only if it is not. -/
theorem settleOne_minimum (honest : s.execute = Ledger.execute) {id : Uuid} {amount : Amount}
    {result : Drop.Result} (h : σ.Reached) (has : σ.Has id amount)
    (play : (s.settleOne id).Plays W σ own (.ok result) τ) :
    (result.reason = some "below_minimum" → amount < s.minimum) ∧
      (result.outcome = .settled → s.minimum ≤ amount) := by
  cases settleOne_plays honest h play with
  | taken => exact ⟨nofun, nofun⟩
  | @claimed _ claim d _ _ others claims same finished =>
    subst same
    have hamount : d.amount = amount := by
      obtain @⟨row, time, found, -, -⟩ := claims
      have hrow : row.amount = amount := (has.run h others).amount (h.run others) found
      exact hrow
    subst hamount
    cases finished with
    | paid _ pays _ heard =>
      obtain rfl := heard
      obtain ⟨-, -, pays, -, -⟩ := pays
      exact ⟨nofun, fun _ => (Transfer.Intent.check_ok.mp pays.proper).2.2.2⟩
    | expired | lost => exact ⟨nofun, nofun⟩
    | failed because | overtaken because | unrecorded because =>
      refine ⟨fun reason => ?_, nofun⟩
      rw [Option.some.inj reason] at because
      exact because.small

end Sweeper

/-- **Which drops are too small to be paid out.** A drop that was started is no smaller than the
least drop. A sweeper of the same ledger fails it for its amount only if it is smaller than the
least tip, and never pays it out if it is. -/
theorem Wiring.started_drop_minimum {c : Config} {W V : World} {σ μ ν τ : State}
    {own others : List Kept} {author channel token : String} {amount : Amount}
    {duration unit : Value} {started : DropStarted} {pass : Drop.Sweep} {result : Drop.Result}
    (h : σ.Reachable)
    (start : ((Wiring.of c).tipping.startDrop author channel token amount duration unit).Plays W σ
      own (.ok started) μ)
    (meanwhile : State.Run μ ν) (sweep : (Wiring.of c).sweeper.sweep.Plays V ν others (.ok pass) τ)
    (reported : result ∈ pass.results) (about : result.drop = started.drop.id) :
    c.ledger.minimumDrop ≤ started.drop.amount ∧
      (result.reason = some "below_minimum" → started.drop.amount < c.ledger.minimumTip) ∧
      (started.drop.amount < c.ledger.minimumTip → result.outcome ≠ .settled) := by
  obtain ⟨least, has⟩ := Tipping.startDrop_plays h.reached start
  obtain ⟨d, ready, left, part, more, attempt⟩ := Sweeper.sweep_reports sweep result reported
  have hstarted : μ.Reached := h.reached.run start.run
  have hready : ready.Reached := (hstarted.run meanwhile).run more
  have hnamed : result.drop = d.id := (Sweeper.settleOne_plays rfl hready attempt).reported.1
  rw [← hnamed, about] at attempt
  obtain ⟨small, large⟩ := Sweeper.settleOne_minimum rfl hready
    ((has.run hstarted meanwhile).run (hstarted.run meanwhile) more) attempt
  exact ⟨least, small, fun hsmall settled => absurd (large settled) (Nat.not_le_of_lt hsmall)⟩

/-! ### A drop between the two

A configuration is accepted whose least tip is ten units and whose least drop is one.
Alice starts a drop of seven under it, and Bob reacts. -/

/-- A world whose store loses nothing and in which the platform answers as told. -/
def World.prompt (answer : (c : Call) → Except CallFault c.Reply) : World :=
  fun β e b => World.lossless β e b ∧ World.fixed answer id β e b

theorem World.not_loses_prompt {answer : (c : Call) → Except CallFault c.Reply}
    (operation : String) : ¬(World.prompt answer).Loses operation := fun h => by
  obtain ⟨_, work, cause, hlossless, -⟩ := h
  exact not_loses_lossless operation ⟨_, work, cause, hlossless⟩

theorem World.answers_prompt (answer : (c : Call) → Except CallFault c.Reply) :
    (World.prompt answer).Answers answer id :=
  ⟨fun _ _ _ h => h.2, fun _ _ h => h.2⟩

namespace Sample

def written : Value :=
  .map [(.text "config_id", .text "sample"), (.text "version", .int 1),
    (.text "database", .map [(.text "url", .text "sqlite://")]),
    (.text "ledger", .map [(.text "minimum_tip", .text "0.00000010"),
      (.text "minimum_reactdrop", .text "0.00000001")])]

/-- What is read from it, but for the checksum. -/
def config : Config :=
  { id := .text "sample", version := 1,
    database := ⟨.text "sqlite://", false, 5, 10, 30, 1800, 30000⟩,
    ledger := ⟨"VRSC", ⟨10⟩, ⟨10⟩, ⟨1⟩⟩, scheduler := ⟨.ofInt 30, 50, 900, .ofInt 30⟩,
    notifications := ⟨.ofInt 10⟩, drops := ⟨168⟩, logging := ⟨"INFO"⟩, checksum := "" }

def wired : Wiring := .of config

def minute : Moment := ⟨60000000, by decide, some 0⟩

def later : Moment := ⟨1000000000, by decide, some 0⟩

def smallRequest : DropRequest := { request with deadline := minute }

def smallDrop : Drop := smallRequest.row (.ofNat 1) "alice" opening minute

def smallReason : String := Sweeper.reasonOf (.belowMinimum ⟨7⟩ ⟨10⟩)

def announced : State := funded.perform (.create smallRequest) "create_reactdrop" (desk 1)

def picked : State := announced.perform (.claim (.ofNat 1)) "claim_reactdrop" (desk 2)

def turnedDown : State :=
  picked.perform (.fail (.ofNat 1) smallReason (some 1)) "fail_reactdrop" (desk 3)

theorem keeps_allowed : funded.Keeps (requireAllowed (.text "alice")) ⟨⟩ funded := by
  have hgives : (requireAllowed (.text "alice")).Gives (funded.begun (desk 1)) ⟨⟩
      (funded.begun (desk 1)) := rfl
  exact State.keeps_of_reads (reads_requireAllowed _) hgives

theorem keeps_funds : funded.Keeps (checkAvailable (.text "alice") ⟨7⟩) ⟨10⟩ funded := by
  have hgives : (checkAvailable (.text "alice") ⟨7⟩).Gives (funded.begun (desk 1)) ⟨10⟩
      (funded.begun (desk 1)) := rfl
  exact ⟨fun _ => [], desk 1, _, .inr ⟨.checkFunds (.text "alice") ⟨7⟩, trivial, rfl⟩, hgives,
    funded.holds_begun _, (List.append_nil _).symm⟩

theorem keeps_announced : funded.Keeps (createDrop smallRequest) smallDrop announced := by
  have hbegun := funded.holds_begun (desk 1)
  have hcan : (funded.begun (desk 1)).CanCreate funded.store smallRequest "alice" opening minute :=
    ⟨rfl, by decide, rfl, by decide +kernel, by decide +kernel, ⟨rfl, rfl⟩, ⟨rfl, rfl⟩, by decide,
      rfl⟩
  exact State.keeps_of_perform (.create smallRequest) trivial rfl
    (createDrop_gives.mpr ⟨_, _, _, _, hbegun, hcan, rfl, rfl⟩) (hbegun.afterCreate ..) _

theorem drop?_picked :
    picked.store.drop? (.ofNat 1) = some (smallDrop.asClaimed deadline) := by
  decide +kernel

theorem keeps_turnedDown :
    ∃ d, picked.Keeps (do Ledger.markFailed (.ofNat 1) smallReason (← Work.now) (some 1)) d
      turnedDown := by
  have hbegun := picked.holds_begun (desk 3)
  have hwork : (Deed.fail (.ofNat 1) smallReason (some 1)).work =
      (do Ledger.markFailed (.ofNat 1) smallReason (← Work.now) (some 1)) >>= fun _ => pure [] := by
    simp [Deed.work]
  have hfits : ∀ n ∈ some (1 : Int), -columnMax - 1 ≤ n ∧ n ≤ columnMax := by decide
  exact ⟨_, State.keeps_of_perform (.fail (.ofNat 1) smallReason (some 1)) trivial hwork
    (Work.gives_bind.mpr ⟨_, _, Work.gives_now.mpr ⟨rfl, rfl⟩, markFailed_gives.mpr
      ⟨deadline, _, _, ⟨rfl, rfl⟩, hfits, hbegun, drop?_picked, rfl, rfl, rfl⟩⟩) (hbegun.keep _) _⟩

theorem undoes_payOut :
    picked.Undoes "settle_reactdrop"
      (wired.sweeper.payOut (smallDrop.asClaimed deadline) ["bob"])
      (.refused (.belowMinimum ⟨7⟩ ⟨10⟩)) := by
  have herror : wired.sweeper.payOut (smallDrop.asClaimed deadline) ["bob"]
      (picked.begun (desk 3)) =
        (.error (.refused (.belowMinimum ⟨7⟩ ⟨10⟩)), picked.begun (desk 3)) :=
    rfl
  exact State.undoes_of_error herror

def smallResult : Drop.Result := ⟨.ofNat 1, .failed, none, some smallReason⟩

theorem goes_allowed : (Tipping.requireAllowed "alice").Goes (.prompt deafBob) Eq funded
    [.kept ⟨"check_blacklist", funded, funded⟩] (.ok ⟨⟩) funded :=
  Program.goes_kept rfl keeps_allowed ⟨trivial, trivial⟩

/-- What comes after the list and the least amount. -/
theorem goes_asRequest {α : Type} {command : Program α} {minimum amount : Amount}
    {acts : List Act} {r : Checked α} {τ : State} (least : ¬amount < minimum)
    (goes : command.Goes (.prompt deafBob) Eq funded acts r τ) :
    (Tipping.asRequest "alice" do
      Tipping.requireAllowed "alice"
      Tipping.requireMinimum amount minimum
      command).Goes (.prompt deafBob) Eq funded
        (.kept ⟨"check_blacklist", funded, funded⟩ :: acts) r τ := by
  have hleast : (Tipping.requireMinimum amount minimum).Goes (.prompt deafBob) Eq funded []
      (.ok ⟨⟩) funded := by
    unfold Tipping.requireMinimum
    rw [if_neg least]
    exact ⟨rfl, rfl, rfl⟩
  refine .andThen (k := []) (a := .ofNat 9) (Program.goes_answered rfl rfl ⟨trivial, trivial⟩) ?_
  refine Program.Goes.bound ?_ .empty (fun _ => rfl) ⟨trivial, trivial⟩ ⟨trivial, trivial⟩
  exact .andThen goes_allowed (.andThen hleast goes)

/-- A question that is answered. -/
theorem goes_replied {c : Call} {reply : c.Reply} (replied : deafBob c = .ok reply) :
    (Program.call c none).Goes (.prompt deafBob) Eq funded [.called c] (.ok reply) funded :=
  ⟨funded, .ok reply, funded, [], rfl, ⟨trivial, replied.symm⟩, rfl, ⟨rfl, rfl, rfl⟩, rfl⟩

theorem goes_started : ∃ text,
    (wired.tipping.startDrop "alice" "town" "hand" ⟨7⟩ (.int 1) (.scalar (.unit .minutes))).Goes
      (.prompt deafBob) Eq funded
      [.kept ⟨"check_blacklist", funded, funded⟩, .called (.usable "town" "hand"),
        .kept ⟨"check_reactdrop_funds", funded, funded⟩, .called (.post "town" text),
        .called (.react "town" "m1" "hand"), .kept ⟨"create_reactdrop", funded, announced⟩]
      (.ok ⟨smallDrop, text⟩) announced := by
  have hdeadline : Drop.deadlineFor opening (.int 1) (.scalar (.unit .minutes)) (.int 168) =
      .ok minute := rfl
  obtain ⟨shown, hshown⟩ := Notifier.format_ok (a := ⟨7⟩) (by decide) wired.notifier
  have hfunds : (Program.transact "check_reactdrop_funds"
      (checkAvailable (.text "alice") ⟨7⟩)).Goes (.prompt deafBob) Eq funded
      [.kept ⟨"check_reactdrop_funds", funded, funded⟩] (.ok ⟨10⟩) funded :=
    Program.goes_kept rfl keeps_funds ⟨trivial, trivial⟩
  have hannounce (text : String) :
      (wired.tipping.announce "town" text).Goes (.prompt deafBob) Eq funded
        [.called (.post "town" text)] (.ok "m1") funded :=
    ⟨funded, .ok "m1", funded, [], rfl, ⟨trivial, rfl⟩, rfl, ⟨rfl, rfl, rfl⟩, rfl⟩
  have hseed : (Tipping.seed "town" "m1" "hand").Goes (.prompt deafBob) Eq funded
      [.called (.react "town" "m1" "hand")] (.ok ⟨⟩) funded :=
    ⟨funded, .ok ⟨⟩, funded, [], rfl, ⟨trivial, rfl⟩, rfl, ⟨rfl, rfl, rfl⟩, rfl⟩
  have hkeep : (Tipping.keep smallRequest).Goes (.prompt deafBob) Eq funded
      [.kept ⟨"create_reactdrop", funded, announced⟩] (.ok smallDrop) announced :=
    .andThen (Program.goes_attempt.mpr ⟨_, Program.goes_kept rfl keeps_announced
      ⟨trivial, trivial⟩, rfl⟩) ⟨rfl, rfl, rfl⟩
  refine ⟨Drop.announcement shown "hand" (minute.since opening), goes_asRequest (by decide) ?_⟩
  refine .andThen (k := []) (a := opening) (Program.goes_answered rfl rfl ⟨trivial, trivial⟩) ?_
  refine .andThen (k := []) ⟨rfl, hdeadline, rfl⟩ (.andThen (goes_replied rfl) ?_)
  refine .andThen hfunds (.andThen (k := []) ⟨rfl, hshown, rfl⟩ ?_)
  exact .andThen (hannounce _) (.andThen hseed (.andThen hkeep ⟨rfl, rfl, rfl⟩))

theorem plays_started : ∃ text,
    (wired.tipping.startDrop "alice" "town" "hand" ⟨7⟩ (.int 1) (.scalar (.unit .minutes))).Plays
      .lossless funded
      [⟨"check_blacklist", funded, funded⟩, ⟨"check_reactdrop_funds", funded, funded⟩,
        ⟨"create_reactdrop", funded, announced⟩] (.ok ⟨smallDrop, text⟩) announced := by
  obtain ⟨text, goes⟩ := goes_started
  exact ⟨text, (goes.mono fun _ _ _ h => h.1).plays_alone⟩

theorem plays_turnedDown :
    (wired.sweeper.settleOne (.ofNat 1)).Plays .lossless announced
      [⟨"claim_reactdrop", announced, picked⟩, ⟨"fail_reactdrop", picked, turnedDown⟩]
      (.ok smallResult) turnedDown := by
  obtain ⟨d, hfail⟩ := keeps_turnedDown
  have hclaim : announced.Keeps (do Ledger.claim (.ofNat 1) (← Work.now))
      (smallDrop.asClaimed deadline) picked :=
    State.keeps_claim ⟨rfl, rfl⟩ (by decide +kernel) rfl _
  have hasked : (Program.tryCall (.reactions "town" "m1" "hand")
      (some wired.sweeper.lookupLimit)).Plays .lossless picked [] (.ok (.ok ["bob"])) picked :=
    Program.plays_answered rfl trivial
  have habandon (told : String) :
      (Sweeper.abandon (smallDrop.asClaimed deadline) smallReason told (some 1)).Plays .lossless
        picked [⟨"fail_reactdrop", picked, turnedDown⟩] (.ok smallResult) turnedDown :=
    .andThen (k := []) (a := ⟨⟩) (Program.plays_answered rfl trivial)
      (.andThen (Program.plays_attempt.mpr ⟨_, Program.plays_kept hfail trivial, rfl⟩)
        ⟨rfl, rfl, rfl⟩)
  have hsettle : (wired.sweeper.settle (smallDrop.asClaimed deadline) ["bob"]).Plays .lossless
      picked [⟨"fail_reactdrop", picked, turnedDown⟩] (.ok smallResult) turnedDown :=
    .andThen (k := [])
      (Program.plays_attempt.mpr ⟨_, Program.plays_undone undoes_payOut trivial, rfl⟩) (habandon _)
  exact .andThen (Program.plays_attempt.mpr ⟨_, Program.plays_kept hclaim trivial, rfl⟩)
    (.andThen hasked hsettle)

theorem plays_swept :
    wired.sweeper.sweep.Plays .lossless announced
      [⟨"fail_stalled_reactdrops", announced, announced⟩,
        ⟨"find_due_reactdrops", announced, announced⟩, ⟨"claim_reactdrop", announced, picked⟩,
        ⟨"fail_reactdrop", picked, turnedDown⟩] (.ok ⟨later, [smallResult], 0⟩) turnedDown := by
  have hstalled : announced.Keeps (failStalled later wired.sweeper.stalledAfter) [] announced :=
    Sweeper.keeps_failStalled (desk 2) rfl rfl ⟨rfl, rfl⟩ (by decide +kernel)
  have hdue : announced.Keeps
      (do Work.check ((← findDue later (some wired.sweeper.batch)).mapM readDrop)) [smallDrop]
      announced :=
    Sweeper.keeps_due (desk 2) ⟨rfl, rfl⟩ (by decide) (by decide +kernel) rfl
  have hbound : (Program.within [(.drop, smallDrop.id.text)]
      (wired.sweeper.settleOne smallDrop.id)).Plays .lossless announced
      [⟨"claim_reactdrop", announced, picked⟩, ⟨"fail_reactdrop", picked, turnedDown⟩]
      (.ok smallResult) turnedDown :=
    plays_turnedDown.bound .empty trivial trivial
  have heach : (wired.sweeper.settleEach [smallDrop]).Plays .lossless announced
      [⟨"claim_reactdrop", announced, picked⟩, ⟨"fail_reactdrop", picked, turnedDown⟩]
      (.ok [smallResult]) turnedDown :=
    .andThen (k := []) (a := false) (Program.plays_answered rfl trivial)
      (.andThen hbound
        (.andThen (k := []) (Program.plays_pure.mpr ⟨rfl, rfl, rfl⟩) ⟨rfl, rfl, rfl⟩))
  refine .andThen (k := []) (a := later) (Program.plays_answered rfl trivial) ?_
  refine .andThen (Program.plays_kept hstalled trivial) ?_
  refine .andThen (Program.plays_kept hdue trivial) (.andThen heach ?_)
  exact .andThen (k := []) (a := ⟨⟩) (Program.plays_answered rfl trivial) ⟨rfl, rfl, rfl⟩

end Sample

/-- The configuration is accepted and the drop is started under it. The sweep fails it because it
is too small. -/
theorem Wiring.sample_too_small :
    (Config.parse Sample.written).toOption.map
        (fun c => (c.ledger.minimumDrop, c.ledger.minimumTip)) =
      some (Sample.config.ledger.minimumDrop, Sample.config.ledger.minimumTip) ∧
    (∃ own text,
      (Sample.wired.tipping.startDrop "alice" "town" "hand" ⟨7⟩ (.int 1)
        (.scalar (.unit .minutes))).Plays .lossless Sample.funded own (.ok ⟨Sample.smallDrop, text⟩)
        Sample.announced) ∧
    (∃ own, Sample.wired.sweeper.sweep.Plays .lossless Sample.announced own
      (.ok ⟨Sample.later, [Sample.smallResult], 0⟩) Sample.turnedDown) ∧
    Sample.smallResult.reason = some "below_minimum" ∧
    Sample.config.ledger.minimumDrop ≤ Sample.smallDrop.amount ∧
    Sample.smallDrop.amount < Sample.config.ledger.minimumTip := by
  have hreason : Sample.smallResult.reason = some "below_minimum" := by
    refine congrArg some (String.toList_inj.mp ?_)
    rw [Sample.smallReason, Sweeper.reasonOf, Sweeper.toList_toLower]
    decide
  obtain ⟨text, hstart⟩ := Sample.plays_started
  obtain ⟨hleast, hsmall, -⟩ := Wiring.started_drop_minimum Sample.reachable_funded hstart .refl
    Sample.plays_swept (List.mem_singleton_self _) rfl
  exact ⟨by decide +kernel, ⟨_, text, hstart⟩, ⟨_, Sample.plays_swept⟩, hreason, hleast,
    hsmall hreason⟩

end TipJar
