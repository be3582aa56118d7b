import TipJar.Proofs.Coins
import TipJar.Proofs.Contents
import TipJar.Proofs.Readings

/-! What is wrong with a configuration that is not accepted.

Two kinds of faults are promised for a configuration that is not accepted: a missing
field, and an invalid value. Others can come about as well, but each of them only from
one of seven defects: a section that is no mapping, a whole number without a check that is
no number at all, an infinite whole number, a whole number too large for a real one, an
amount beyond what decimals keep, and keys that cannot stand together. With any of these
defects a configuration is not accepted; without them, what is reported is what was
promised. -/
namespace TipJar

/-! ### Values that cannot be read -/

namespace Value
variable {v : Value}

/-- An infinite number. -/
def IsEndless (v : Value) : Prop := ∃ negative, v = .scalar (.float (.infinite negative))

/-- A whole number that is too large for a real one. -/
def IsImmense (v : Value) : Prop :=
  ∃ i negative, v = .scalar (.int i) ∧ Binary64.ofInt i = .infinite negative

/-- An amount of more units than decimals can count. -/
def IsOversize (v : Value) : Prop :=
  ∃ negative c e, Amount.readCoins? v = some (.finite negative c e) ∧
    10 ^ (Decimal.standard.maxExponent + 1) ≤
      Decimal.standard.rounded (c * Amount.unitsPerCoin) e

theorem wholeText_fails {s shown : String} :
    Checked.FailsOnly (wholeText s shown) fun why => ∃ w, why = .invalid w := by
  unfold wholeText
  split
  · exact nofun
  · exact Checked.failsOnly_error ⟨_, rfl⟩

theorem realText_fails {s shown : String} :
    Checked.FailsOnly (realText s shown) fun why => ∃ w, why = .invalid w := by
  unfold realText
  split
  · exact nofun
  · exact Checked.failsOnly_error ⟨_, rfl⟩

theorem IsYaml.whole_fails (h : v.IsYaml) : Checked.FailsOnly v.whole fun why =>
    (∃ w, why = .invalid w) ∨ (∃ kind, why = .mismatch (.notWhole kind)) ∨
      why = .beyond .infiniteFloat ∧ v.IsEndless := by
  cases h with
  | list | map => exact Checked.failsOnly_error (.inr (.inl ⟨_, rfl⟩))
  | @scalar s simple =>
    cases s with
    | bool | int => exact Checked.failsOnly_ok _
    | null | moment | date => exact Checked.failsOnly_error (.inr (.inl ⟨_, rfl⟩))
    | text => exact wholeText_fails.imp fun _ => .inl
    | float f =>
      cases f with
      | finite => exact Checked.failsOnly_ok _
      | infinite negative => exact Checked.failsOnly_error (.inr (.inr ⟨rfl, negative, rfl⟩))
      | nan => exact Checked.failsOnly_error (.inl ⟨_, rfl⟩)
    | _ => cases simple

theorem real_int_fails (i : Int) : Checked.FailsOnly (scalar (.int i)).real fun why =>
    why = .beyond .float ∧ (scalar (.int i)).IsImmense := by
  unfold real Scalar.real
  dsimp only
  split
  · next negative hi => exact Checked.failsOnly_error ⟨rfl, i, negative, rfl, hi⟩
  · exact Checked.failsOnly_ok _

theorem IsImmense.real_eq (h : v.IsImmense) : v.real = .error (.beyond .float) := by
  obtain ⟨i, negative, rfl, hi⟩ := h
  unfold real Scalar.real
  dsimp only
  rw [hi]

theorem IsYaml.real_fails (h : v.IsYaml) : Checked.FailsOnly v.real fun why =>
    (∃ w, why = .invalid w) ∨ (∃ kind, why = .mismatch (.notReal kind)) ∨
      why = .beyond .float ∧ v.IsImmense := by
  cases h with
  | list | map => exact Checked.failsOnly_error (.inr (.inl ⟨_, rfl⟩))
  | @scalar s simple =>
    cases s with
    | bool | float => exact Checked.failsOnly_ok _
    | null | moment | date => exact Checked.failsOnly_error (.inr (.inl ⟨_, rfl⟩))
    | text => exact realText_fails.imp fun _ => .inl
    | int i => exact (real_int_fails i).imp fun _ h => .inr (.inr h)
    | _ => cases simple

theorem IsYaml.plain_ok (h : v.IsYaml) : ∃ s, v.plain = .ok s := by
  cases h with
  | list | map => exact ⟨_, rfl⟩
  | @scalar s simple => cases s <;> first | exact ⟨_, rfl⟩ | cases simple

end Value

namespace Amount
variable {v : Value}

theorem ofDecimal_fails (negative : Bool) (c : Nat) (e : Int) (written : String) :
    Checked.FailsOnly (ofDecimal (.finite negative c e) written) fun why =>
      (∃ w, why = .invalid w) ∨ why = .arithmetic .overflow ∧
        10 ^ (Decimal.standard.maxExponent + 1) ≤
          Decimal.standard.rounded (c * unitsPerCoin) e := by
  intro why hwhy
  obtain hinvalid | ⟨hover, hlarge⟩ := (readAs_ofDecimal negative c e written).2 why hwhy
  · exact .inl hinvalid
  · rw [Decimal.abs_signed, abs_of_nonneg (Decimal.Bounds.rounded_nonneg ..)] at hlarge
    exact .inr ⟨hover, hlarge⟩

/-- A value is read as the number that it is written as, unless it is a real number. -/
theorem ofCoins_written (yaml : v.IsYaml) {negative : Bool} {c : Nat} {e : Int}
    (hread : readCoins? v = some (.finite negative c e)) :
    ofCoins v = .error (.invalid .floatCoins) ∨
      ∃ written, ofCoins v = ofDecimal (.finite negative c e) written := by
  obtain ⟨written, hwritten⟩ := yaml.plain_ok
  have hplain : Checked.ofArithmetic v.plain = .ok written := by
    rw [hwritten]
    rfl
  have hfinite : (Decimal.finite negative c e).isFinite = true := rfl
  unfold ofCoins
  split
  · exact .inl rfl
  · refine .inr ⟨written, ?_⟩
    rw [hread]
    dsimp only
    rw [if_pos hfinite, hplain]
    exact pure_bind written _

theorem ofCoins_fails (yaml : v.IsYaml) : Checked.FailsOnly (ofCoins v) fun why =>
    (∃ w, why = .invalid w) ∨ why = .arithmetic .overflow ∧ v.IsOversize := by
  intro why hwhy
  have hunread (h : ∀ negative c e, readCoins? v ≠ some (.finite negative c e)) :
      ∃ w, ofCoins v = .error (.invalid w) := by
    unfold ofCoins
    split
    · exact ⟨_, rfl⟩
    split
    · next coins hcoins =>
      cases coins with
      | finite => exact absurd hcoins (h _ _ _)
      | infinite | nan => exact ⟨_, rfl⟩
    · exact ⟨_, rfl⟩
  by_cases hread : ∃ negative c e, readCoins? v = some (.finite negative c e)
  · obtain ⟨negative, c, e, hread⟩ := hread
    obtain hfloat | ⟨written, hwritten⟩ := ofCoins_written yaml hread
    · rw [hfloat] at hwhy
      exact .inl ⟨_, (Except.error.inj hwhy).symm⟩
    · rw [hwritten] at hwhy
      obtain hinvalid | ⟨hover, hlarge⟩ := ofDecimal_fails negative c e written hwhy
      · exact .inl hinvalid
      · exact .inr ⟨hover, negative, c, e, hread, hlarge⟩
  · obtain ⟨w, hw⟩ := hunread fun negative c e h => hread ⟨negative, c, e, h⟩
    rw [hw] at hwhy
    exact .inl ⟨w, (Except.error.inj hwhy).symm⟩

/-- What is too large is never read. -/
theorem ofCoins_oversize (yaml : v.IsYaml) (h : v.IsOversize) (a : Amount) : ofCoins v ≠ .ok a := by
  obtain ⟨negative, c, e, hread, hlarge⟩ := h
  obtain hfloat | ⟨written, hwritten⟩ := ofCoins_written yaml hread
  · rw [hfloat]
    exact nofun
  · rw [hwritten, ofDecimal_overflow hlarge]
    exact nofun

end Amount

/-! ### Looking fields up -/

namespace Value
variable {data v : Value}

theorem IsYaml.entry (h : data.IsYaml) {name : String} (hv : data.under? name = some v) :
    v.IsYaml := by
  cases h with
  | scalar | list => cases hv
  | map _ each =>
    obtain ⟨e, he, rfl⟩ := Option.map_eq_some_iff.mp hv
    exact each e (List.mem_of_find?_eq_some he)

theorem IsYaml.at {path : List String} (h : data.IsYaml) (hv : data.at? path = some v) :
    v.IsYaml := by
  unfold at? at hv
  induction path generalizing data with
  | nil => exact Option.some.inj hv ▸ h
  | cons name path ih =>
    rw [List.foldlM_cons] at hv
    obtain ⟨inner, hinner, hv⟩ := Option.bind_eq_some_iff.mp hv
    exact ih (h.entry hinner) hv

/-- A field is where its path leads, or its default. -/
theorem underOr_eq {sect : Value} {outer name : String} (default : Value)
    (path : sect.under? name = data.at? [outer, name]) :
    data.at? [outer, name] = some (sect.underOr name default) ∨
      sect.underOr name default = default := by
  unfold underOr
  rw [path]
  cases data.at? [outer, name] with
  | none => exact .inr rfl
  | some v => exact .inl rfl

/-- A field that is not like its default was written. -/
theorem written_of_underOr {sect default : Value} {outer name : String} {P : Value → Prop}
    (path : sect.under? name = data.at? [outer, name]) (h : P (sect.underOr name default))
    (hdefault : ¬P default) : data.at? [outer, name] = some (sect.underOr name default) :=
  (underOr_eq default path).resolve_right fun hsame => hdefault (hsame ▸ h)

end Value

namespace Config
variable {data sect v default : Value} {outer name label : String}

theorem required_fails : Checked.FailsOnly (required v name) fun why =>
    (why = .missing (.text name) ∧ v.IsMap ∧ v.under? name = none) ∨
      (∃ kind, why = .mismatch kind) ∧ ¬v.IsMap := by
  cases v with
  | map entries =>
    unfold required
    dsimp only
    split
    · exact nofun
    · next h => exact Checked.failsOnly_error (.inl ⟨rfl, ⟨_, rfl⟩, congrArg (Option.map _) h⟩)
  | list | tuple => exact Checked.failsOnly_error (.inr ⟨⟨_, rfl⟩, nofun⟩)
  | scalar s =>
    unfold required
    dsimp only
    split <;> exact Checked.failsOnly_error (.inr ⟨⟨_, rfl⟩, nofun⟩)

theorem fieldOr_fails : Checked.FailsOnly (fieldOr v name default) fun why =>
    why = .mismatch (.noAttribute v.fullKind "get") ∧ ¬v.IsMap := by
  cases v with
  | map entries => exact nofun
  | _ => exact Checked.failsOnly_error ⟨rfl, nofun⟩

theorem section?_fails (h : data.IsMap) {P : Fault → Prop} :
    Checked.FailsOnly (section? data name) P := by
  intro why hwhy
  have hok : section? data name = .ok (sectionOf data name) := section?_ok.mpr ⟨h, rfl⟩
  rw [hok] at hwhy
  cases hwhy

/-- An optional section that is no mapping was written so, and does not count as nothing. -/
theorem sectionOf_flat (h : ¬(sectionOf data name).IsMap) :
    data.under? name = some (sectionOf data name) ∧ (sectionOf data name).truthy = true := by
  unfold sectionOf at h ⊢
  revert h
  cases data.under? name with
  | none => exact fun h => absurd ⟨[], rfl⟩ h
  | some v =>
    dsimp only
    cases htruthy : v.truthy with
    | true => exact fun _ => ⟨rfl, htruthy⟩
    | false => exact fun h => absurd ⟨[], rfl⟩ h

/-! ### Fields that are checked -/

theorem expectNumber_fails {α : Type} {x : Checked α} {P : Fault → Prop}
    (h : Checked.FailsOnly x fun why => (∃ w, why = .invalid w) ∨
      (∃ kind, why = .mismatch kind ∧ kind.name = "TypeError") ∨ P why) :
    Checked.FailsOnly (expectNumber x v label) fun why =>
      (∃ w, why = .invalid (.field label w)) ∨ P why := by
  cases x with
  | ok a => exact nofun
  | error why =>
    unfold expectNumber
    dsimp only
    split
    · exact Checked.failsOnly_error (.inl ⟨_, rfl⟩)
    · next hother =>
      refine Checked.failsOnly_error (.inr ?_)
      obtain ⟨w, rfl⟩ | ⟨kind, rfl, hkind⟩ | hp := h rfl
      · exact absurd rfl hother
      · refine absurd ?_ hother
        rw [Bool.or_eq_true]
        exact .inr (beq_iff_eq.mpr hkind)
      · exact hp

theorem positiveWhole_fails (yaml : v.IsYaml) : Checked.FailsOnly (positiveWhole v label) fun why =>
    (∃ w, why = .invalid (.field label w)) ∨ why = .beyond .infiniteFloat ∧ v.IsEndless := by
  refine Checked.FailsOnly.bind (expectNumber_fails (yaml.whole_fails.imp ?_)) fun n _ => ?_
  · rintro why (hinvalid | ⟨kind, hkind⟩ | hendless)
    · exact .inl hinvalid
    · exact .inr (.inl ⟨_, hkind, rfl⟩)
    · exact .inr (.inr hendless)
  · split
    · exact Checked.failsOnly_error (.inl ⟨_, rfl⟩)
    · exact Checked.failsOnly_ok _

theorem positiveReal_fails (yaml : v.IsYaml) : Checked.FailsOnly (positiveReal v label) fun why =>
    (∃ w, why = .invalid (.field label w)) ∨ why = .beyond .float ∧ v.IsImmense := by
  refine Checked.FailsOnly.bind (expectNumber_fails (yaml.real_fails.imp ?_)) fun x _ => ?_
  · rintro why (hinvalid | ⟨kind, hkind⟩ | himmense)
    · exact .inl hinvalid
    · exact .inr (.inl ⟨_, hkind, rfl⟩)
    · exact .inr (.inr himmense)
  · split
    · exact Checked.failsOnly_ok _
    · exact Checked.failsOnly_ok _
    · exact Checked.failsOnly_error (.inl ⟨_, rfl⟩)

theorem amountField_fails (yaml : v.IsYaml) : Checked.FailsOnly (amountField v label) fun why =>
    (∃ w, why = .invalid (.field label w)) ∨ why = .arithmetic .overflow ∧ v.IsOversize := by
  unfold amountField
  split
  · exact Checked.failsOnly_error (.inl ⟨_, rfl⟩)
  split
  · split
    · exact Checked.failsOnly_error (.inl ⟨_, rfl⟩)
    · exact Checked.failsOnly_ok _
  · next why hwhy =>
    split
    · exact Checked.failsOnly_error (.inl ⟨_, rfl⟩)
    · next hother =>
      obtain ⟨w, rfl⟩ | hoversize := Amount.ofCoins_fails yaml hwhy
      · exact absurd rfl hother
      · exact Checked.failsOnly_error (.inr hoversize)

/-! ### What is reported -/

/-- The fields that must be there. -/
def requiredFields : List (List String) :=
  [["config_id"], ["version"], ["database"], ["ledger"], ["database", "url"],
   ["ledger", "minimum_tip"]]

/-- The sections that have such fields. -/
def requiredSections : List String := ["database", "ledger"]

/-- The sections that may be left out. -/
def optionalSections : List String := ["scheduler", "notifications", "reactdrop", "logging"]

/-- The whole numbers that must be positive. -/
def checkedWholes : List (List String) :=
  [["database", "pool_size"], ["database", "pool_timeout"], ["database", "sqlite_busy_timeout_ms"],
   ["scheduler", "batch_size"], ["scheduler", "stalled_after_seconds"],
   ["reactdrop", "max_duration_hours"]]

/-- The whole numbers that are not checked. -/
def bareWholes : List (List String) :=
  [["version"], ["database", "max_overflow"], ["database", "pool_recycle"]]

/-- The real numbers that must be positive. -/
def checkedReals : List (List String) :=
  [["scheduler", "sweep_interval_seconds"], ["scheduler", "participant_lookup_timeout_seconds"],
   ["notifications", "delivery_timeout_seconds"]]

/-- The amounts. -/
def amounts : List (List String) :=
  [["ledger", "minimum_tip"], ["ledger", "minimum_role_tip"], ["ledger", "minimum_reactdrop"]]

/-- The level of what is logged, which must be a known one. -/
def levels : List (List String) := [["logging", "level"]]

/-- The fields of which messages tell the place. -/
def checkedFields : List (List String) := checkedWholes ++ checkedReals ++ amounts ++ levels

/-- The faults that are promised for a value that is no configuration: a missing field, a checked
field that is invalid, under its name, and a whole number that is no numeral. -/
inductive Promised (data : Value) : Fault → Prop
  | missing {path : List String} {name : String} {v : Value}
      (field : path ++ [name] ∈ requiredFields) (written : data.at? path = some v)
      (isMap : v.IsMap) (absent : v.under? name = none) : Promised data (.missing (.text name))
  | refused {path : List String} (field : path ∈ checkedFields) (why : String) :
      Promised data (.invalid (.field (".".intercalate path) why))
  | numeral {path : List String} {v : Value} {why : Invalid} (field : path ∈ bareWholes)
      (written : data.at? path = some v) (unread : v.whole = .error (.invalid why)) :
      Promised data (.invalid why)

theorem missing_top {data : Value} {name : String} (field : [name] ∈ requiredFields)
    (isMap : data.IsMap) (absent : data.under? name = none) :
    Promised data (.missing (.text name)) :=
  have hpath : [] ++ [name] ∈ requiredFields := field
  .missing hpath rfl isMap absent

/-- The other faults, each with the defect that it comes from. -/
inductive Astray (data : Value) : Fault → Prop
  /-- A required section is no mapping. -/
  | formless {name : String} {v : Value} {kind : Mismatch} (required : name ∈ requiredSections)
      (written : data.under? name = some v) (flat : ¬v.IsMap) : Astray data (.mismatch kind)
  /-- An optional section is no mapping, and does not count as nothing. -/
  | flat {name : String} {v : Value} (optional : name ∈ optionalSections)
      (written : data.under? name = some v) (truthy : v.truthy = true) (flat : ¬v.IsMap) :
      Astray data (.mismatch (.noAttribute v.fullKind "get"))
  /-- A whole number that is not checked is no number at all. -/
  | bare {path : List String} {v : Value} {kind : Mismatch} (field : path ∈ bareWholes)
      (written : data.at? path = some v) (unread : v.whole = .error (.mismatch kind)) :
      Astray data (.mismatch kind)
  /-- A whole number is infinite. -/
  | endless {path : List String} {v : Value} (field : path ∈ checkedWholes ++ bareWholes)
      (written : data.at? path = some v) (endless : v.IsEndless) :
      Astray data (.beyond .infiniteFloat)
  /-- A real number is a whole one that is too large. -/
  | immense {path : List String} {v : Value} (field : path ∈ checkedReals)
      (written : data.at? path = some v) (immense : v.IsImmense) : Astray data (.beyond .float)
  /-- An amount is more than decimals can count. -/
  | oversize {path : List String} {v : Value} (field : path ∈ amounts)
      (written : data.at? path = some v) (oversize : v.IsOversize) :
      Astray data (.arithmetic .overflow)
  /-- The keys of a mapping cannot stand together. -/
  | keys {kind : Mismatch} (unfit : ¬data.Writable) : Astray data (.mismatch kind)

/-- What is reported for a value that is no configuration. -/
def Reported (data : Value) (why : Fault) : Prop := Promised data why ∨ Astray data why

section Fields
variable {β : Type} {f : Value → Checked β} {P : Fault → Prop}

theorem fieldOr_bind (isMap : sect.IsMap)
    (h : Checked.FailsOnly (f (sect.underOr name default)) P) :
    Checked.FailsOnly (fieldOr sect name default >>= f) P := by
  have hok : fieldOr sect name default = .ok (sect.underOr name default) :=
    fieldOr_ok.mpr ⟨isMap, rfl⟩
  rw [hok]
  exact h

theorem required_reported (field : [name] ∈ requiredFields) (isMap : data.IsMap) :
    Checked.FailsOnly (required data name) (Reported data) := by
  refine required_fails.imp ?_
  rintro why (⟨rfl, hmap, habsent⟩ | ⟨-, hflat⟩)
  · exact .inl (missing_top field hmap habsent)
  · exact absurd isMap hflat

theorem requiredInside_reported (field : [outer] ++ [name] ∈ requiredFields)
    (required' : outer ∈ requiredSections) (written : data.under? outer = some v) :
    Checked.FailsOnly (required v name) (Reported data) := by
  refine required_fails.imp ?_
  rintro why (⟨rfl, hmap, habsent⟩ | ⟨⟨kind, rfl⟩, hflat⟩)
  · exact .inl (.missing field ((data.at?_one outer).trans written) hmap habsent)
  · exact .inr (.formless required' written hflat)

theorem bareWhole_reported {path : List String} (yaml : data.IsYaml) (field : path ∈ bareWholes)
    (written : data.at? path = some v ∨ ∃ n, v.whole = .ok n) :
    Checked.FailsOnly v.whole (Reported data) := by
  intro why hwhy
  obtain hat | ⟨n, hn⟩ := written
  · obtain ⟨w, rfl⟩ | ⟨kind, rfl⟩ | ⟨rfl, hendless⟩ := (yaml.at hat).whole_fails hwhy
    · exact .inl (.numeral field hat hwhy)
    · exact .inr (.bare field hat hwhy)
    · exact .inr (.endless (List.mem_append_right _ field) hat hendless)
  · rw [hn] at hwhy
    cases hwhy

/-- A check that names its field reports what is promised, but for the one defect that goes through
it. -/
theorem checked_reported {α : Type} {x : Checked α} {defect : Fault} {Q : Prop}
    (field : [outer, name] ∈ checkedFields)
    (fails : Checked.FailsOnly x fun why =>
      (∃ w, why = .invalid (.field (outer ++ "." ++ name) w)) ∨ why = defect ∧ Q)
    (astray : Q → Astray data defect) : Checked.FailsOnly x (Reported data) := by
  refine fails.imp ?_
  rintro why (⟨w, rfl⟩ | ⟨rfl, hdefect⟩)
  · exact .inl (.refused field w)
  · exact .inr (astray hdefect)

variable (yaml : data.IsYaml) (path : sect.under? name = data.at? [outer, name])
include yaml path

/-- A field that is a value of a configuration text if it is written. -/
theorem underOr_yaml (hdefault : default.IsYaml) : (sect.underOr name default).IsYaml := by
  obtain hat | hnone := Value.underOr_eq default path
  · exact yaml.at hat
  · rwa [hnone]

theorem plain_underOr_fails (t : String) :
    Checked.FailsOnly (Checked.ofArithmetic (sect.underOr name (.text t)).plain) P := by
  have hyaml : (sect.underOr name (.text t)).IsYaml := underOr_yaml yaml path (.scalar trivial)
  obtain ⟨s, hs⟩ := hyaml.plain_ok
  rw [hs]
  exact Checked.failsOnly_ok s

theorem checkedWhole_reported (field : [outer, name] ∈ checkedWholes) (n : Int) :
    Checked.FailsOnly (positiveWhole (sect.underOr name (.int n)) (outer ++ "." ++ name))
      (Reported data) := by
  have hyaml : (sect.underOr name (.int n)).IsYaml := underOr_yaml yaml path (.scalar trivial)
  have hfield : [outer, name] ∈ checkedFields := by simp [checkedFields, field]
  refine checked_reported hfield (positiveWhole_fails hyaml) fun hendless => ?_
  have hwritten := Value.written_of_underOr path hendless fun ⟨_, h⟩ => nomatch h
  exact .endless (List.mem_append_left _ field) hwritten hendless

theorem checkedReal_reported (field : [outer, name] ∈ checkedReals) (n : Nat) :
    Checked.FailsOnly (positiveReal (sect.underOr name (realDefault n)) (outer ++ "." ++ name))
      (Reported data) := by
  have hyaml : (sect.underOr name (realDefault n)).IsYaml :=
    underOr_yaml yaml path (.scalar trivial)
  have hfield : [outer, name] ∈ checkedFields := by simp [checkedFields, field]
  refine checked_reported hfield (positiveReal_fails hyaml) fun himmense => ?_
  have hwritten := Value.written_of_underOr path himmense fun ⟨_, _, h, _⟩ => nomatch h
  exact .immense field hwritten himmense

end Fields

/-- An amount may have been written in another place. -/
theorem amount_reported {place : List String} (yaml : data.IsYaml)
    (field : [outer, name] ∈ amounts) (other : place ∈ amounts)
    (written : data.at? place = some v) :
    Checked.FailsOnly (amountField v (outer ++ "." ++ name)) (Reported data) := by
  have hfield : [outer, name] ∈ checkedFields := by simp [checkedFields, field]
  exact checked_reported hfield (amountField_fails (yaml.at written))
    (.oversize other written)

/-! ### Sections -/

theorem Database.parse_reported (yaml : data.IsYaml) (written : data.under? "database" = some v) :
    Checked.FailsOnly (Database.parse v) (Reported data) := by
  have hpath (name : String) : v.under? name = data.at? ["database", name] := by
    rw [Value.at?_two, written]
    rfl
  have hbare (name : String) (n : Int) :
      data.at? ["database", name] = some (v.underOr name (.int n)) ∨
        ∃ m, (v.underOr name (.int n)).whole = .ok m :=
    (Value.underOr_eq _ (hpath name)).imp_right fun h => ⟨n, by rw [h]; rfl⟩
  refine (requiredInside_reported (by decide) (by decide) written).bind fun url hurl => ?_
  have hmap := Value.isMap_of_under (required_ok.mp hurl)
  refine fieldOr_bind hmap ?_
  refine fieldOr_bind hmap ((checkedWhole_reported yaml (hpath _) (by decide) 5).bind fun _ _ => ?_)
  refine fieldOr_bind hmap ((bareWhole_reported yaml (by decide) (hbare _ _)).bind fun _ _ => ?_)
  refine fieldOr_bind hmap
    ((checkedWhole_reported yaml (hpath _) (by decide) 30).bind fun _ _ => ?_)
  refine fieldOr_bind hmap ((bareWhole_reported yaml (by decide) (hbare _ _)).bind fun _ _ => ?_)
  refine fieldOr_bind hmap
    ((checkedWhole_reported yaml (hpath _) (by decide) 30000).bind fun _ _ => ?_)
  exact Checked.failsOnly_ok _

theorem Ledger.parse_reported (yaml : data.IsYaml) (written : data.under? "ledger" = some v) :
    Checked.FailsOnly (Ledger.parse v) (Reported data) := by
  have hpath (name : String) : v.under? name = data.at? ["ledger", name] := by
    rw [Value.at?_two, written]
    rfl
  refine (requiredInside_reported (by decide) (by decide) written).bind fun least hleast => ?_
  rw [required_ok] at hleast
  have hmap := Value.isMap_of_under hleast
  have hleastAt := (hpath _).symm.trans hleast
  -- A minimum that is not written is the least tip, which was written.
  have hminimum {name : String} (field : ["ledger", name] ∈ amounts) :
      Checked.FailsOnly (amountField (v.underOr name least) ("ledger" ++ "." ++ name))
        (Reported data) := by
    obtain hat | hnone := Value.underOr_eq least (hpath name)
    · exact amount_reported yaml field field hat
    · rw [hnone]
      exact amount_reported yaml field (by decide) hleastAt
  have htip : Checked.FailsOnly (amountField least ("ledger" ++ "." ++ "minimum_tip"))
      (Reported data) := amount_reported yaml (by decide) (by decide) hleastAt
  refine Checked.FailsOnly.bind htip fun _ _ => ?_
  refine fieldOr_bind hmap ((plain_underOr_fails yaml (hpath "ticker") _).bind fun _ _ => ?_)
  refine fieldOr_bind hmap (Checked.FailsOnly.bind (hminimum (by decide)) fun _ _ => ?_)
  refine fieldOr_bind hmap (Checked.FailsOnly.bind (hminimum (by decide)) fun _ _ => ?_)
  exact Checked.failsOnly_ok _

/-- A check on an optional section that first looks a field up. -/
theorem section_reported {β : Type} {f : Value → Checked β} (optional : outer ∈ optionalSections)
    (h : (sectionOf data outer).IsMap →
      Checked.FailsOnly (f ((sectionOf data outer).underOr name default)) (Reported data)) :
    Checked.FailsOnly (fieldOr (sectionOf data outer) name default >>= f) (Reported data) := by
  by_cases hmap : (sectionOf data outer).IsMap
  · exact fieldOr_bind hmap (h hmap)
  · obtain ⟨hwritten, htruthy⟩ := sectionOf_flat hmap
    refine (fieldOr_fails.imp ?_).bind fun _ hok => absurd (fieldOr_ok.mp hok).1 hmap
    rintro why ⟨rfl, -⟩
    exact .inr (.flat optional hwritten htruthy hmap)

theorem Scheduler.parse_reported (yaml : data.IsYaml) :
    Checked.FailsOnly (Scheduler.parse (sectionOf data "scheduler")) (Reported data) := by
  have hpath := under?_sectionOf data "scheduler"
  refine section_reported (by decide) fun hmap => ?_
  refine (checkedReal_reported yaml (hpath _) (by decide) 30).bind fun _ _ => ?_
  refine fieldOr_bind hmap
    ((checkedWhole_reported yaml (hpath _) (by decide) 50).bind fun _ _ => ?_)
  refine fieldOr_bind hmap
    ((checkedWhole_reported yaml (hpath _) (by decide) 900).bind fun _ _ => ?_)
  refine fieldOr_bind hmap ((checkedReal_reported yaml (hpath _) (by decide) 30).bind fun _ _ => ?_)
  exact Checked.failsOnly_ok _

theorem Notifications.parse_reported (yaml : data.IsYaml) :
    Checked.FailsOnly (Notifications.parse (sectionOf data "notifications")) (Reported data) := by
  have hpath := under?_sectionOf data "notifications"
  refine section_reported (by decide) fun hmap => ?_
  refine (checkedReal_reported yaml (hpath _) (by decide) 10).bind fun _ _ => ?_
  exact Checked.failsOnly_ok _

theorem Drops.parse_reported (yaml : data.IsYaml) :
    Checked.FailsOnly (Drops.parse (sectionOf data "reactdrop")) (Reported data) := by
  have hpath := under?_sectionOf data "reactdrop"
  refine section_reported (by decide) fun hmap => ?_
  refine (checkedWhole_reported yaml (hpath _) (by decide) 168).bind fun _ _ => ?_
  exact Checked.failsOnly_ok _

theorem Logging.parse_reported (yaml : data.IsYaml) :
    Checked.FailsOnly (Logging.parse (sectionOf data "logging")) (Reported data) := by
  have hpath := under?_sectionOf data "logging"
  refine section_reported (by decide) fun hmap => ?_
  refine (plain_underOr_fails yaml (hpath "level") "INFO").bind fun _ _ => ?_
  dsimp only
  split
  · exact Checked.failsOnly_ok _
  · have hlevel : ["logging", "level"] ∈ checkedFields := by decide
    exact Checked.failsOnly_error (.inl (.refused hlevel _))

/-! ### Configurations -/

theorem checksumOf_reported (yaml : data.IsYaml) :
    Checked.FailsOnly (checksumOf data) (Reported data) := by
  refine Checked.FailsOnly.bind ?_ fun _ _ => Checked.failsOnly_ok _
  intro why hwhy
  obtain ⟨kind, rfl⟩ := yaml.json_fails hwhy
  refine .inr (.keys fun hwritable => ?_)
  obtain ⟨t, ht⟩ := yaml.json_ok_iff.mpr hwritable
  cases ht.symm.trans hwhy

theorem parse_reported (isMap : data.IsMap) (yaml : data.IsYaml) :
    Checked.FailsOnly (parse data) (Reported data) := by
  refine (required_reported (by decide) isMap).bind fun id _ => ?_
  refine (required_reported (by decide) isMap).bind fun version hversion => ?_
  rw [required_ok, ← Value.at?_one] at hversion
  refine (bareWhole_reported yaml (by decide) (.inl hversion)).bind fun _ _ => ?_
  refine (required_reported (by decide) isMap).bind fun database hdatabase => ?_
  refine (Database.parse_reported yaml (required_ok.mp hdatabase)).bind fun _ _ => ?_
  refine (required_reported (by decide) isMap).bind fun ledger hledger => ?_
  refine (Ledger.parse_reported yaml (required_ok.mp hledger)).bind fun _ _ => ?_
  refine (section?_fails isMap).bind fun _ hsection => ?_
  obtain ⟨-, rfl⟩ := section?_ok.mp hsection
  refine (Scheduler.parse_reported yaml).bind fun _ _ => ?_
  refine (section?_fails isMap).bind fun _ hsection => ?_
  obtain ⟨-, rfl⟩ := section?_ok.mp hsection
  refine (Notifications.parse_reported yaml).bind fun _ _ => ?_
  refine (section?_fails isMap).bind fun _ hsection => ?_
  obtain ⟨-, rfl⟩ := section?_ok.mp hsection
  refine (Drops.parse_reported yaml).bind fun _ _ => ?_
  refine (section?_fails isMap).bind fun _ hsection => ?_
  obtain ⟨-, rfl⟩ := section?_ok.mp hsection
  refine (Logging.parse_reported yaml).bind fun _ _ => ?_
  exact (checksumOf_reported yaml).bind fun _ _ => Checked.failsOnly_ok _

/-! ### Defects are fatal -/

section Fatal
variable {c : Config} {path : List String}

theorem underOr_of_at {sect default : Value} (hpath : sect.under? name = data.at? [outer, name])
    (written : data.at? [outer, name] = some v) : sect.underOr name default = v := by
  unfold Value.underOr
  rw [hpath, written]
  rfl

/-- What a section of an accepted configuration has under a name is where the path leads. -/
theorem inside {sect : Value} (written : data.under? outer = some sect) (name : String) :
    sect.under? name = data.at? [outer, name] := by
  rw [Value.at?_two, written]
  rfl

theorem ReadFrom.whole_ok (h : c.ReadFrom data) (field : path ∈ checkedWholes ++ bareWholes)
    (written : data.at? path = some v) : ∃ n, v.whole = .ok n := by
  obtain ⟨d, hd, hdatabase⟩ := h.database
  have hchecked {sect : Value} {outer name : String} {default : Value} {n : Int}
      (hpath : sect.under? name = data.at? [outer, name])
      (written : data.at? [outer, name] = some v)
      (hread : (sect.underOr name default).whole = .ok n) : ∃ n, v.whole = .ok n :=
    ⟨n, underOr_of_at hpath written ▸ hread⟩
  simp only [checkedWholes, bareWholes, List.cons_append, List.nil_append, List.mem_cons,
    List.not_mem_nil, or_false] at field
  rcases field with rfl | rfl | rfl | rfl | rfl | rfl | rfl | rfl | rfl
  · exact hchecked (inside hd _) written hdatabase.poolSize.1
  · exact hchecked (inside hd _) written hdatabase.poolTimeout.1
  · exact hchecked (inside hd _) written hdatabase.busyTimeoutMs.1
  · exact hchecked (under?_sectionOf ..) written h.scheduler.batchSize.1
  · exact hchecked (under?_sectionOf ..) written h.scheduler.stalledAfter.1
  · exact hchecked (under?_sectionOf ..) written h.drops.maxHours.1
  · obtain ⟨version, hversion, hread⟩ := h.version
    rw [Value.at?_one, hversion] at written
    exact ⟨_, Option.some.inj written ▸ hread⟩
  · exact hchecked (inside hd _) written hdatabase.maxOverflow
  · exact hchecked (inside hd _) written hdatabase.poolRecycle

theorem ReadFrom.real_ok (h : c.ReadFrom data) (field : path ∈ checkedReals)
    (written : data.at? path = some v) : ∃ x, v.real = .ok x := by
  simp only [checkedReals, List.mem_cons, List.not_mem_nil, or_false] at field
  rcases field with rfl | rfl | rfl
  · exact ⟨_, underOr_of_at (under?_sectionOf ..) written ▸ h.scheduler.sweepInterval.1⟩
  · exact ⟨_, underOr_of_at (under?_sectionOf ..) written ▸ h.scheduler.lookupTimeout.1⟩
  · exact ⟨_, underOr_of_at (under?_sectionOf ..) written ▸ h.notifications.deliveryTimeout.1⟩

theorem ReadFrom.amount_ok (h : c.ReadFrom data) (field : path ∈ amounts)
    (written : data.at? path = some v) : ∃ a, Amount.ofCoins v = .ok a := by
  obtain ⟨l, hl, ⟨least, hleast, htip, hrole, hdrop⟩, -⟩ := h.ledger
  simp only [amounts, List.mem_cons, List.not_mem_nil, or_false] at field
  rcases field with rfl | rfl | rfl
  · rw [← inside hl, hleast] at written
    exact ⟨_, Option.some.inj written ▸ htip.1⟩
  · exact ⟨_, underOr_of_at (inside hl _) written ▸ hrole.1⟩
  · exact ⟨_, underOr_of_at (inside hl _) written ▸ hdrop.1⟩

theorem ReadFrom.isMap (h : c.ReadFrom data) (required : name ∈ requiredSections)
    (written : data.under? name = some v) : v.IsMap := by
  obtain ⟨d, hd, hdatabase⟩ := h.database
  obtain ⟨l, hl, ⟨least, hleast, -⟩, -⟩ := h.ledger
  simp only [requiredSections, List.mem_cons, List.not_mem_nil, or_false] at required
  rcases required with rfl | rfl
  · exact Option.some.inj (hd.symm.trans written) ▸ Value.isMap_of_under hdatabase.url
  · exact Option.some.inj (hl.symm.trans written) ▸ Value.isMap_of_under hleast

theorem ReadFrom.isMap_section (h : c.ReadFrom data) (optional : name ∈ optionalSections) :
    (sectionOf data name).IsMap := by
  simp only [optionalSections, List.mem_cons, List.not_mem_nil, or_false] at optional
  rcases optional with rfl | rfl | rfl | rfl
  · exact h.scheduler.isMap
  · exact h.notifications.isMap
  · exact h.drops.isMap
  · exact h.logging.isMap

/-- What has a defect is not accepted. -/
theorem Astray.not_accepted {why : Fault} (h : Astray data why) (yaml : data.IsYaml) (c : Config) :
    parse data ≠ .ok c := by
  intro hparse
  have hread := parse_ok.mp hparse
  cases h with
  | formless required written flat => exact flat (hread.isMap required written)
  | @flat name v optional written truthy flat =>
    have hsection : sectionOf data name = v := by
      unfold sectionOf
      rw [written]
      exact if_pos truthy
    exact flat (hsection ▸ hread.isMap_section optional)
  | bare field written unread =>
    obtain ⟨n, hn⟩ := hread.whole_ok (List.mem_append_right _ field) written
    cases hn.symm.trans unread
  | endless field written endless =>
    obtain ⟨n, hn⟩ := hread.whole_ok field written
    obtain ⟨negative, rfl⟩ := endless
    cases hn
  | immense field written immense =>
    obtain ⟨x, hx⟩ := hread.real_ok field written
    cases immense.real_eq.symm.trans hx
  | oversize field written oversize =>
    obtain ⟨a, ha⟩ := hread.amount_ok field written
    exact Amount.ofCoins_oversize (yaml.at written) oversize a ha
  | keys unfit =>
    obtain ⟨t, ht, -⟩ := Checked.bind_ok.mp hread.checksum
    exact unfit (yaml.json_ok_iff.mp ⟨t, ht⟩)

end Fatal

/-! ### Names of faults -/

theorem name_of_promised {why : Fault} (h : Promised data why) :
    why.name = "KeyError" ∨ why.name = "ValueError" := by
  cases h with
  | missing => exact .inl rfl
  | refused | numeral => exact .inr rfl

theorem mismatch_name (kind : Mismatch) :
    (Fault.mismatch kind).name ≠ "KeyError" ∧ (Fault.mismatch kind).name ≠ "ValueError" := by
  have hname : kind.name = "AttributeError" ∨ kind.name = "TypeError" := by
    cases kind <;> first | exact .inl rfl | exact .inr rfl
  show kind.name ≠ "KeyError" ∧ kind.name ≠ "ValueError"
  obtain h | h := hname <;> rw [h] <;> exact ⟨by decide, by decide⟩

theorem name_of_astray {why : Fault} (h : Astray data why) :
    why.name ≠ "KeyError" ∧ why.name ≠ "ValueError" := by
  cases h with
  | formless | flat | bare | keys => exact mismatch_name _
  | endless | immense | oversize => exact ⟨by decide, by decide⟩

/-- For a mapping of a configuration text that is not accepted, either one of the faults that are
promised is reported, or the mapping has a defect that the reported fault comes from. What has a
defect is never accepted. -/
theorem parse_faults (isMap : data.IsMap) (yaml : data.IsYaml) :
    (∀ why, parse data = .error why →
      Promised data why ∧ (why.name = "KeyError" ∨ why.name = "ValueError") ∨
        Astray data why ∧ why.name ≠ "KeyError" ∧ why.name ≠ "ValueError") ∧
    ∀ why, Astray data why → ∀ c, parse data ≠ .ok c := by
  refine ⟨fun why hwhy => ?_, fun _ h => h.not_accepted yaml⟩
  obtain h | h := parse_reported isMap yaml hwhy
  · exact .inl ⟨h, name_of_promised h⟩
  · exact .inr ⟨h, name_of_astray h⟩

/-- A configuration whose store is to keep an infinite number of connections. -/
def boundless : Value := .record
  [("config_id", .text "boundless"), ("version", .int 1),
   ("database", .record [("url", .text "sqlite://"),
     ("pool_size", .scalar (.float (.infinite false)))]),
   ("ledger", .record [("minimum_tip", .text "0.001")])]

/-- It is not accepted, with a fault that is not promised. -/
theorem boundless_astray : ∃ why, parse boundless = .error why ∧ Astray boundless why ∧
    why.name = "OverflowError" := by
  have hdatabase : (Value.record [("url", .text "sqlite://"),
      ("pool_size", .scalar (.float (.infinite false)))]).IsYaml := by
    refine Value.isYaml_record ?_
    simp only [List.forall_mem_cons]
    exact ⟨.scalar trivial, .scalar trivial, nofun⟩
  have hledger : (Value.record [("minimum_tip", .text "0.001")]).IsYaml := by
    refine Value.isYaml_record ?_
    simp only [List.forall_mem_cons]
    exact ⟨.scalar trivial, nofun⟩
  have hyaml : boundless.IsYaml := by
    refine Value.isYaml_record ?_
    simp only [List.forall_mem_cons]
    exact ⟨.scalar trivial, .scalar trivial, hdatabase, hledger, nofun⟩
  have hfault : parse boundless = .error (.beyond .infiniteFloat) := rfl
  obtain ⟨-, hname⟩ | ⟨hastray, -⟩ := (parse_faults ⟨_, rfl⟩ hyaml).1 _ hfault
  · exact absurd hname (by decide)
  · exact ⟨_, hfault, hastray, rfl⟩

end Config
end TipJar
