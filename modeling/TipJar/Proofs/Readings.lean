import TipJar.Config.Parser
import TipJar.Proofs.Checking

/-! What an accepted configuration was read from.

A configuration is accepted exactly if each of its fields can be read from the value
that stands for it, or from a default, and passes its check. So whatever is asked of an
accepted configuration can be read off one record. The check of a number is written as a
refusal of what is at most zero: for whole numbers that leaves the positive ones, but
for real numbers it leaves the one that is no number as well. -/
namespace TipJar

/-! ### Looking fields up -/

namespace Value
variable {data v : Value} {name : String}

/-- The value under a text, if the value is a mapping that has it. -/
def under? (data : Value) (name : String) : Option Value :=
  match data with
  | .map entries => (entries.find? fun (key, _) => (scalar key).text? == some name).map (·.2)
  | _ => none

/-- The value that a path of texts leads to. -/
def at? (data : Value) (path : List String) : Option Value := path.foldlM under? data

/-- The value under a text, or a default. -/
def underOr (data : Value) (name : String) (default : Value) : Value :=
  (data.under? name).getD default

/-- Whether a value is a mapping. -/
def IsMap (v : Value) : Prop := ∃ entries, v = .map entries

theorem at?_one (data : Value) (name : String) : data.at? [name] = data.under? name := by
  unfold at?
  rw [List.foldlM_cons]
  exact bind_pure _

theorem at?_two (data : Value) (outer inner : String) :
    data.at? [outer, inner] = (data.under? outer).bind (·.under? inner) := by
  unfold at?
  rw [List.foldlM_cons]
  exact congrArg (data.under? outer).bind (funext fun v => v.at?_one inner)

theorem isMap_of_under (h : data.under? name = some v) : data.IsMap := by
  cases data with
  | map entries => exact ⟨entries, rfl⟩
  | _ => cases h

/-- A mapping without entries has nothing under any text. -/
theorem under?_of_not_truthy (h : v.truthy = false) (name : String) : v.under? name = none := by
  cases v with
  | map entries =>
    cases entries with
    | nil => rfl
    | cons => cases h
  | _ => rfl

end Value

namespace Config
variable {data v w : Value} {name : String}

theorem required_ok : required data name = .ok v ↔ data.under? name = some v := by
  cases data with
  | map entries =>
    unfold required Value.under?
    dsimp only
    split
    · next h => rw [h]; simp
    · next h => rw [h]; simp
  | list | tuple => exact iff_of_false nofun nofun
  | scalar s =>
    refine iff_of_false (fun h => ?_) nofun
    unfold required at h
    dsimp only at h
    split at h <;> cases h

theorem field?_ok {x : Option Value} :
    field? data name = .ok x ↔ data.IsMap ∧ x = data.under? name := by
  cases data with
  | map entries => exact ⟨fun h => ⟨⟨_, rfl⟩, (Except.ok.inj h).symm⟩, fun h => h.2 ▸ rfl⟩
  | _ => exact iff_of_false nofun fun ⟨⟨_, h⟩, _⟩ => nomatch h

theorem fieldOr_ok {default : Value} :
    fieldOr data name default = .ok v ↔ data.IsMap ∧ v = data.underOr name default := by
  unfold fieldOr
  simp only [Checked.bind_ok, field?_ok]
  constructor
  · rintro ⟨_, ⟨hmap, rfl⟩, h⟩
    exact ⟨hmap, (Except.ok.inj h).symm⟩
  · rintro ⟨hmap, rfl⟩
    exact ⟨_, ⟨hmap, rfl⟩, rfl⟩

/-- What is read for an optional section: it, if it counts as true, and else an empty mapping. -/
def sectionOf (data : Value) (name : String) : Value :=
  match data.under? name with
  | some v => if v.truthy then v else .map []
  | none => .map []

theorem section?_ok : section? data name = .ok v ↔
    data.IsMap ∧ v = sectionOf data name := by
  unfold section? sectionOf
  simp only [Checked.bind_ok, field?_ok]
  generalize data.under? name = x
  constructor
  · rintro ⟨given, ⟨hmap, rfl⟩, h⟩
    refine ⟨hmap, ?_⟩
    cases given <;> exact (Except.ok.inj h).symm
  · rintro ⟨hmap, rfl⟩
    refine ⟨x, ⟨hmap, rfl⟩, ?_⟩
    cases x <;> rfl

/-- The fields of an optional section are where its path leads. -/
theorem under?_sectionOf (data : Value) (name field : String) :
    (sectionOf data name).under? field = data.at? [name, field] := by
  rw [Value.at?_two]
  unfold sectionOf
  cases data.under? name with
  | none => rfl
  | some v =>
    dsimp only [Option.bind_some]
    cases h : v.truthy with
    | true => rfl
    | false => exact (Value.under?_of_not_truthy h field).symm

end Config

/-! ### Reading fields -/

namespace Binary64

/-- The numbers above zero, the infinite one among them. -/
def IsPositive : Binary64 → Prop
  | finite negative significand _ => negative = false ∧ 0 < significand
  | infinite negative => negative = false
  | nan => False

theorem compareInt?_zero_iff {f : Binary64} : f.compareInt? 0 = some .gt ↔ f.IsPositive := by
  cases f with
  | finite negative significand exponent =>
    have hsign : 0 < signed negative significand ↔ negative = false ∧ 0 < significand := by
      cases negative <;> simp [signed]
    unfold compareInt? IsPositive
    dsimp only
    rw [← hsign]
    split
    · have hpos : (0 : Int) < (Nat.pow 2 exponent.toNat : Nat) := by
        exact_mod_cast Nat.pow_pos (by decide)
      rw [Option.some.injEq, Int.compare_eq_gt]
      exact ⟨fun h => Int.pos_of_mul_pos_left h hpos, fun h => Int.mul_pos h hpos⟩
    · rw [Int.zero_mul, Option.some.injEq, Int.compare_eq_gt]
  | infinite negative => cases negative <;> simp [compareInt?, IsPositive]
  | nan => simp [compareInt?, IsPositive]

/-- Only what is no number is neither above nor below another. -/
theorem compareInt?_none_iff {f : Binary64} {i : Int} : f.compareInt? i = none ↔ f = .nan := by
  cases f with
  | finite =>
    refine iff_of_false (fun h => ?_) nofun
    unfold compareInt? at h
    dsimp only at h
    split at h <;> cases h
  | infinite => exact iff_of_false nofun nofun
  | nan => exact iff_of_true rfl rfl

theorem ofRatio_ne_nan (negative : Bool) (num den : Nat) : ofRatio negative num den ≠ nan := by
  unfold ofRatio
  split
  · exact nofun
  · dsimp only
    split
    · split <;> exact nofun
    · split <;> exact nofun

theorem ofInt_ne_nan (i : Int) : ofInt i ≠ nan := by
  unfold ofInt ofScaled
  split
  · exact ofRatio_ne_nan _ _ _
  · exact ofRatio_ne_nan _ _ _

end Binary64

namespace Config
variable {data v : Value} {name : String}

theorem expectNumber_ok {α : Type} {x : Checked α} {a : α} :
    expectNumber x v name = .ok a ↔ x = .ok a := by
  cases x with
  | ok b => exact Iff.rfl
  | error why =>
    refine iff_of_false (fun h => ?_) nofun
    unfold expectNumber at h
    dsimp only at h
    split at h <;> cases h

/-- Whether a value is read as a positive whole number. -/
def ReadsWhole (v : Value) (n : Int) : Prop := v.whole = .ok n ∧ 0 < n

/-- Whether a value is read as a real number that is not at most zero. -/
def ReadsReal (v : Value) (x : Binary64) : Prop := v.real = .ok x ∧ (x.IsPositive ∨ x = .nan)

/-- Whether a value is read as an amount of at least one unit. -/
def ReadsAmount (v : Value) (a : Amount) : Prop := Amount.ofCoins v = .ok a ∧ 0 < a.units

theorem positiveWhole_ok {n : Int} : positiveWhole v name = .ok n ↔ ReadsWhole v n := by
  unfold positiveWhole ReadsWhole
  simp only [Checked.bind_ok, expectNumber_ok]
  constructor
  · rintro ⟨m, hm, h⟩
    split at h
    · cases h
    · next hpos => exact Except.ok.inj h ▸ ⟨hm, Int.not_le.mp hpos⟩
  · rintro ⟨hn, hpos⟩
    exact ⟨n, hn, if_neg (Int.not_le.mpr hpos)⟩

theorem positiveReal_ok {x : Binary64} : positiveReal v name = .ok x ↔ ReadsReal v x := by
  unfold positiveReal ReadsReal
  simp only [Checked.bind_ok, expectNumber_ok]
  constructor
  · rintro ⟨y, hy, h⟩
    split at h
    · next hgt => exact Except.ok.inj h ▸ ⟨hy, .inl (Binary64.compareInt?_zero_iff.mp hgt)⟩
    · next hnone => exact Except.ok.inj h ▸ ⟨hy, .inr (Binary64.compareInt?_none_iff.mp hnone)⟩
    · cases h
  · rintro ⟨hx, hpos | hnone⟩
    · refine ⟨x, hx, ?_⟩
      rw [Binary64.compareInt?_zero_iff.mpr hpos]
      rfl
    · refine ⟨x, hx, ?_⟩
      rw [Binary64.compareInt?_none_iff.mpr hnone]
      rfl

theorem amountField_ok {a : Amount} : amountField v name = .ok a ↔ ReadsAmount v a := by
  unfold amountField ReadsAmount
  split
  · exact iff_of_false nofun fun h => nomatch h.1
  · split
    · next b hb =>
      rw [hb]
      split
      · next hzero =>
        refine iff_of_false nofun ?_
        rintro ⟨⟨⟩, hpos⟩
        exact Nat.ne_of_gt hpos hzero
      · next hpos =>
        refine ⟨?_, And.left⟩
        rintro ⟨⟩
        exact ⟨rfl, Nat.pos_of_ne_zero hpos⟩
    · next why hwhy =>
      rw [hwhy]
      refine iff_of_false (fun h => ?_) fun h => nomatch h.1
      split at h <;> cases h

/-! ### Sections -/

/-- What the section on the store is read from. -/
structure Database.ReadFrom (data : Value) (d : Database) : Prop where
  url : data.under? "url" = some d.url
  echo : d.echo = (data.underOr "echo" (.bool false)).truthy
  poolSize : ReadsWhole (data.underOr "pool_size" (.int 5)) d.poolSize
  maxOverflow : (data.underOr "max_overflow" (.int 10)).whole = .ok d.maxOverflow
  poolTimeout : ReadsWhole (data.underOr "pool_timeout" (.int 30)) d.poolTimeout
  poolRecycle : (data.underOr "pool_recycle" (.int 1800)).whole = .ok d.poolRecycle
  busyTimeoutMs : ReadsWhole (data.underOr "sqlite_busy_timeout_ms" (.int 30000)) d.busyTimeoutMs

theorem Database.parse_ok {d : Database} : parse data = .ok d ↔ d.ReadFrom data := by
  unfold parse
  simp only [Checked.bind_ok, required_ok, fieldOr_ok, positiveWhole_ok]
  constructor
  · rintro ⟨url, hurl, _, ⟨-, rfl⟩, _, ⟨-, rfl⟩, poolSize, hsize, _, ⟨-, rfl⟩,
      maxOverflow, hoverflow, _, ⟨-, rfl⟩, poolTimeout, htimeout, _, ⟨-, rfl⟩,
      poolRecycle, hrecycle, _, ⟨-, rfl⟩, busyTimeoutMs, hbusy, h⟩
    obtain rfl := Except.ok.inj h
    exact ⟨hurl, rfl, hsize, hoverflow, htimeout, hrecycle, hbusy⟩
  · intro h
    have hmap := Value.isMap_of_under h.url
    refine ⟨_, h.url, _, ⟨hmap, rfl⟩, _, ⟨hmap, rfl⟩, _, h.poolSize, _, ⟨hmap, rfl⟩,
      _, h.maxOverflow, _, ⟨hmap, rfl⟩, _, h.poolTimeout, _, ⟨hmap, rfl⟩,
      _, h.poolRecycle, _, ⟨hmap, rfl⟩, _, h.busyTimeoutMs, ?_⟩
    rw [← h.echo]
    rfl

/-- What the section on amounts is read from. The least tip is the default of the other two. -/
structure Ledger.ReadFrom (data : Value) (l : Ledger) : Prop where
  minimumTip : ∃ least, data.under? "minimum_tip" = some least ∧ ReadsAmount least l.minimumTip ∧
    ReadsAmount (data.underOr "minimum_role_tip" least) l.minimumRoleTip ∧
    ReadsAmount (data.underOr "minimum_reactdrop" least) l.minimumDrop
  ticker : Checked.ofArithmetic (data.underOr "ticker" (.text Amount.defaultTicker)).plain =
    .ok l.ticker

theorem Ledger.parse_ok {l : Ledger} : parse data = .ok l ↔ l.ReadFrom data := by
  unfold parse
  simp only [Checked.bind_ok, required_ok, fieldOr_ok, amountField_ok]
  constructor
  · rintro ⟨least, hleast, minimumTip, htip, _, ⟨-, rfl⟩, ticker, hticker, _, ⟨-, rfl⟩,
      minimumRoleTip, hrole, _, ⟨-, rfl⟩, minimumDrop, hdrop, h⟩
    obtain rfl := Except.ok.inj h
    exact ⟨⟨least, hleast, htip, hrole, hdrop⟩, hticker⟩
  · rintro ⟨⟨least, hleast, htip, hrole, hdrop⟩, hticker⟩
    have hmap := Value.isMap_of_under hleast
    exact ⟨least, hleast, _, htip, _, ⟨hmap, rfl⟩, _, hticker, _, ⟨hmap, rfl⟩, _, hrole,
      _, ⟨hmap, rfl⟩, _, hdrop, rfl⟩

/-- What the section on the sweeper is read from. -/
structure Scheduler.ReadFrom (data : Value) (s : Scheduler) : Prop where
  isMap : data.IsMap
  sweepInterval : ReadsReal (data.underOr "sweep_interval_seconds" (realDefault 30)) s.sweepInterval
  batchSize : ReadsWhole (data.underOr "batch_size" (.int 50)) s.batchSize
  stalledAfter : ReadsWhole (data.underOr "stalled_after_seconds" (.int 900)) s.stalledAfter
  lookupTimeout :
    ReadsReal (data.underOr "participant_lookup_timeout_seconds" (realDefault 30)) s.lookupTimeout

theorem Scheduler.parse_ok {s : Scheduler} : parse data = .ok s ↔ s.ReadFrom data := by
  unfold parse
  simp only [Checked.bind_ok, fieldOr_ok, positiveWhole_ok, positiveReal_ok]
  constructor
  · rintro ⟨_, ⟨hmap, rfl⟩, sweepInterval, hinterval, _, ⟨-, rfl⟩, batchSize, hbatch, _, ⟨-, rfl⟩,
      stalledAfter, hstalled, _, ⟨-, rfl⟩, lookupTimeout, hlookup, h⟩
    obtain rfl := Except.ok.inj h
    exact ⟨hmap, hinterval, hbatch, hstalled, hlookup⟩
  · intro h
    exact ⟨_, ⟨h.isMap, rfl⟩, _, h.sweepInterval, _, ⟨h.isMap, rfl⟩, _, h.batchSize,
      _, ⟨h.isMap, rfl⟩, _, h.stalledAfter, _, ⟨h.isMap, rfl⟩, _, h.lookupTimeout, rfl⟩

/-- What the section on messages is read from. -/
structure Notifications.ReadFrom (data : Value) (n : Notifications) : Prop where
  isMap : data.IsMap
  deliveryTimeout :
    ReadsReal (data.underOr "delivery_timeout_seconds" (realDefault 10)) n.deliveryTimeout

theorem Notifications.parse_ok {n : Notifications} : parse data = .ok n ↔ n.ReadFrom data := by
  unfold parse
  simp only [Checked.bind_ok, fieldOr_ok, positiveReal_ok]
  constructor
  · rintro ⟨_, ⟨hmap, rfl⟩, deliveryTimeout, hdelivery, h⟩
    obtain rfl := Except.ok.inj h
    exact ⟨hmap, hdelivery⟩
  · exact fun h => ⟨_, ⟨h.isMap, rfl⟩, _, h.deliveryTimeout, rfl⟩

/-- What the section on drops is read from. -/
structure Drops.ReadFrom (data : Value) (d : Drops) : Prop where
  isMap : data.IsMap
  maxHours : ReadsWhole (data.underOr "max_duration_hours" (.int 168)) d.maxHours

theorem Drops.parse_ok {d : Drops} : parse data = .ok d ↔ d.ReadFrom data := by
  unfold parse
  simp only [Checked.bind_ok, fieldOr_ok, positiveWhole_ok]
  constructor
  · rintro ⟨_, ⟨hmap, rfl⟩, maxHours, hhours, h⟩
    obtain rfl := Except.ok.inj h
    exact ⟨hmap, hhours⟩
  · exact fun h => ⟨_, ⟨h.isMap, rfl⟩, _, h.maxHours, rfl⟩

/-- What the section on log lines is read from. -/
structure Logging.ReadFrom (data : Value) (l : Logging) : Prop where
  isMap : data.IsMap
  level : ∃ written,
    Checked.ofArithmetic (data.underOr "level" (.text "INFO")).plain = .ok written ∧
      l.level = Text.capitalize written
  known : (Log.levelOf? l.level).isSome

theorem Logging.parse_ok {l : Logging} : parse data = .ok l ↔ l.ReadFrom data := by
  unfold parse
  simp only [Checked.bind_ok, fieldOr_ok]
  constructor
  · rintro ⟨_, ⟨hmap, rfl⟩, written, hwritten, h⟩
    split at h
    · next number hnumber =>
      obtain rfl := Except.ok.inj h
      exact ⟨hmap, ⟨written, hwritten, rfl⟩, Option.isSome_iff_exists.mpr ⟨number, hnumber⟩⟩
    · cases h
  · rintro ⟨hmap, ⟨written, hwritten, hlevel⟩, hknown⟩
    refine ⟨_, ⟨hmap, rfl⟩, written, hwritten, ?_⟩
    obtain ⟨number, hnumber⟩ := Option.isSome_iff_exists.mp hknown
    rw [← hlevel, hnumber]
    rfl

/-! ### Configurations -/

/-- What a configuration is read from. -/
structure ReadFrom (data : Value) (c : Config) : Prop where
  id : data.under? "config_id" = some c.id
  version : ∃ v, data.under? "version" = some v ∧ v.whole = .ok c.version
  database : ∃ v, data.under? "database" = some v ∧ c.database.ReadFrom v
  ledger : ∃ v, data.under? "ledger" = some v ∧ c.ledger.ReadFrom v
  scheduler : c.scheduler.ReadFrom (sectionOf data "scheduler")
  notifications : c.notifications.ReadFrom (sectionOf data "notifications")
  drops : c.drops.ReadFrom (sectionOf data "reactdrop")
  logging : c.logging.ReadFrom (sectionOf data "logging")
  checksum : checksumOf data = .ok c.checksum

/-- A configuration is accepted exactly if it can be read, field by field. -/
theorem parse_ok {c : Config} : parse data = .ok c ↔ c.ReadFrom data := by
  unfold parse
  simp only [Checked.bind_ok, required_ok, section?_ok, Database.parse_ok, Ledger.parse_ok,
    Scheduler.parse_ok, Notifications.parse_ok, Drops.parse_ok, Logging.parse_ok]
  constructor
  · rintro ⟨id, hid, v, hv, version, hversion, d, hd, database, hdatabase, l, hl, ledger, hledger,
      _, ⟨-, rfl⟩, scheduler, hscheduler, _, ⟨-, rfl⟩, notifications, hnotifications, _, ⟨-, rfl⟩,
      drops, hdrops, _, ⟨-, rfl⟩, logging, hlogging, checksum, hchecksum, h⟩
    obtain rfl := Except.ok.inj h
    exact ⟨hid, ⟨v, hv, hversion⟩, ⟨d, hd, hdatabase⟩, ⟨l, hl, hledger⟩, hscheduler, hnotifications,
      hdrops, hlogging, hchecksum⟩
  · rintro ⟨hid, ⟨v, hv, hversion⟩, ⟨d, hd, hdatabase⟩, ⟨l, hl, hledger⟩, hscheduler,
      hnotifications, hdrops, hlogging, hchecksum⟩
    have hmap := Value.isMap_of_under hid
    exact ⟨_, hid, v, hv, _, hversion, d, hd, _, hdatabase, l, hl, _, hledger, _, ⟨hmap, rfl⟩,
      _, hscheduler, _, ⟨hmap, rfl⟩, _, hnotifications, _, ⟨hmap, rfl⟩, _, hdrops,
      _, ⟨hmap, rfl⟩, _, hlogging, _, hchecksum, rfl⟩

/-! ### What the checks leave -/

theorem realDefault_number (n : Nat) : (realDefault n).real ≠ .ok .nan :=
  fun h => Binary64.ofInt_ne_nan n (Except.ok.inj h)

/-- Whether what a path leads to is read as the real number that is none. -/
def WritesNan (data : Value) (path : List String) : Prop :=
  ∃ v, data.at? path = some v ∧ v.real = .ok .nan

/-- A real field is positive, unless what was written for it is no number. -/
theorem ReadsReal.positive_iff {sect default : Value} {outer : String} {x : Binary64}
    (h : ReadsReal (sect.underOr name default) x) (number : default.real ≠ .ok .nan)
    (path : sect.under? name = data.at? [outer, name]) :
    (x.IsPositive ↔ ¬WritesNan data [outer, name]) ∧ (x = .nan ↔ WritesNan data [outer, name]) := by
  obtain ⟨hread, hx⟩ := h
  have hwritten : x = .nan ↔ WritesNan data [outer, name] := by
    unfold Value.underOr at hread
    rw [path] at hread
    unfold WritesNan
    cases hat : data.at? [outer, name] with
    | none =>
      rw [hat] at hread
      refine iff_of_false ?_ nofun
      rintro rfl
      exact number hread
    | some v =>
      rw [hat] at hread
      have hread : v.real = .ok x := hread
      refine ⟨?_, ?_⟩
      · rintro rfl
        exact ⟨v, rfl, hread⟩
      · rintro ⟨_, ⟨⟩, hnan⟩
        exact Except.ok.inj (hread.symm.trans hnan)
  refine ⟨?_, hwritten⟩
  rw [← hwritten]
  refine ⟨?_, hx.resolve_right⟩
  rintro hpos rfl
  exact hpos

/-- The whole numbers of a configuration that are checked. -/
def wholes (c : Config) : List Int :=
  [c.database.poolSize, c.database.poolTimeout, c.database.busyTimeoutMs, c.scheduler.batchSize,
   c.scheduler.stalledAfter, c.drops.maxHours]

/-- The real numbers of a configuration that are checked, with where they are written. -/
def reals (c : Config) : List (List String × Binary64) :=
  [(["scheduler", "sweep_interval_seconds"], c.scheduler.sweepInterval),
   (["scheduler", "participant_lookup_timeout_seconds"], c.scheduler.lookupTimeout),
   (["notifications", "delivery_timeout_seconds"], c.notifications.deliveryTimeout)]

/-- The least amounts of the commands. -/
def minimums (l : Ledger) : List Amount := [l.minimumTip, l.minimumRoleTip, l.minimumDrop]

/-- What the checks of a configuration leave: positive whole numbers, real numbers that are positive
unless they were written as no number, amounts of at least a unit, the least tip where no other
minimum is written, and a level that there is. -/
structure PassesChecks (data : Value) (c : Config) : Prop where
  wholes : ∀ n ∈ c.wholes, 0 < n
  reals : ∀ r ∈ c.reals, (r.2.IsPositive ↔ ¬WritesNan data r.1) ∧ (r.2 = .nan ↔ WritesNan data r.1)
  minimums : ∀ a ∈ minimums c.ledger, 1 ≤ a.units
  roleTip : data.at? ["ledger", "minimum_role_tip"] = none →
    c.ledger.minimumRoleTip = c.ledger.minimumTip
  drop : data.at? ["ledger", "minimum_reactdrop"] = none →
    c.ledger.minimumDrop = c.ledger.minimumTip
  level : (Log.levelOf? c.logging.level).isSome

theorem ReadsAmount.unique {a b : Amount} (ha : ReadsAmount v a) (hb : ReadsAmount v b) : a = b :=
  Except.ok.inj (ha.1.symm.trans hb.1)

/-- An accepted configuration has passed its checks. Those let a real number pass that is none, and
nothing else that is not positive. -/
theorem accepted_passes {c : Config} (h : parse data = .ok c) : PassesChecks data c := by
  obtain ⟨-, -, ⟨d, -, hdatabase⟩, ⟨l, hl, hledger⟩, hscheduler, hnotifications, hdrops,
    hlogging, -⟩ := parse_ok.mp h
  obtain ⟨⟨least, -, htip, hrole, hdrop⟩, -⟩ := hledger
  have hinner (field : String) : data.at? ["ledger", field] = l.under? field := by
    rw [Value.at?_two, hl]
    rfl
  refine ⟨?_, ?_, ?_, fun hnone => ?_, fun hnone => ?_, hlogging.known⟩
  · simp only [wholes, List.forall_mem_cons]
    exact ⟨hdatabase.poolSize.2, hdatabase.poolTimeout.2, hdatabase.busyTimeoutMs.2,
      hscheduler.batchSize.2, hscheduler.stalledAfter.2, hdrops.maxHours.2, nofun⟩
  · simp only [reals, List.forall_mem_cons]
    exact ⟨hscheduler.sweepInterval.positive_iff (realDefault_number _) (under?_sectionOf ..),
      hscheduler.lookupTimeout.positive_iff (realDefault_number _) (under?_sectionOf ..),
      hnotifications.deliveryTimeout.positive_iff (realDefault_number _) (under?_sectionOf ..),
      nofun⟩
  · simp only [minimums, List.forall_mem_cons]
    exact ⟨htip.2, hrole.2, hdrop.2, nofun⟩
  · rw [hinner] at hnone
    unfold Value.underOr at hrole
    rw [hnone] at hrole
    exact hrole.unique htip
  · rw [hinner] at hnone
    unfold Value.underOr at hdrop
    rw [hnone] at hdrop
    exact hdrop.unique htip

/-- A configuration whose sweeper is to rest for a time that is no number. -/
def restless : Value := .record
  [("config_id", .text "restless"), ("version", .int 1),
   ("database", .record [("url", .text "sqlite:///:memory:")]),
   ("ledger", .record [("minimum_tip", .text "0.001")]),
   ("scheduler", .record [("sweep_interval_seconds", .scalar (.float .nan))])]

/-- It is accepted, and what it has for the interval is not positive. -/
theorem restless_passes : ∃ c, parse restless = .ok c ∧ PassesChecks restless c ∧
    c.scheduler.sweepInterval = .nan ∧ ¬c.scheduler.sweepInterval.IsPositive := by
  have haccepted : (parse restless).isOk = true := by decide +kernel
  cases hparse : parse restless with
  | error why => rw [hparse] at haccepted; cases haccepted
  | ok c =>
    have hpasses := accepted_passes hparse
    have hnan : c.scheduler.sweepInterval = .nan :=
      (hpasses.reals _ List.mem_cons_self).2.mpr ⟨_, rfl, rfl⟩
    refine ⟨c, rfl, hpasses, hnan, ?_⟩
    rw [hnan]
    exact fun hpos => hpos

end Config
end TipJar
