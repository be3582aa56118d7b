import TipJar.Amount.Coins
import TipJar.Config.Basic
import TipJar.Log.Level
import TipJar.Sha256
import TipJar.Text.Capital
import TipJar.Value.Json

/-! Reading configurations.

A configuration is read from a loosely typed value, section by section and field
by field, and the first fault found is reported. Required fields have no
defaults; amounts must be written as texts, whole numbers or decimals, and every
interval, size and timeout must be positive. -/
namespace TipJar.Config

/-! ### Looking fields up -/

/-- The field of a value that must have it. -/
def required (data : Value) (name : String) : Checked Value :=
  match data with
  | .map entries =>
    match entries.find? fun (key, _) => (Value.scalar key).text? == some name with
    | some (_, v) => .ok v
    | none => .error (.missing (.text name))
  | .list _ => .error (.mismatch (.listIndex "list" "str"))
  | .tuple _ => .error (.mismatch (.listIndex "tuple" "str"))
  | v =>
    match v.text? with
    | some _ => .error (.mismatch (.textIndex "str"))
    | none => .error (.mismatch (.noItems v.fullKind))

def field? (data : Value) (name : String) : Checked (Option Value) :=
  match data with
  | .map entries =>
    .ok ((entries.find? fun (key, _) => (Value.scalar key).text? == some name).map (·.2))
  | v => .error (.mismatch (.noAttribute v.fullKind "get"))

/-- The field of a value, or a default. -/
def fieldOr (data : Value) (name : String) (default : Value) : Checked Value := do
  return (← field? data name).getD default

/-- A section; what is missing or counts as false is an empty one. -/
def section? (data : Value) (name : String) : Checked Value := do
  match ← field? data name with
  | some v => return if v.truthy then v else .map []
  | none => return .map []

/-! ### Reading fields -/

/-- Says in which field a value is not allowed. -/
def inField {α : Type} (name why : String) : Checked α := .error (.invalid (.field name why))

/-- A positive amount, which must not be written as a floating-point number. -/
def amountField (v : Value) (name : String) : Checked Amount :=
  match v with
  | .scalar (.float _) => inField name ("write amounts as quoted strings, got float " ++ v.shown)
  | v =>
    match Amount.ofCoins v with
    | .ok amount =>
      if amount.units = 0 then inField name "must be greater than zero" else .ok amount
    | .error fault =>
      if fault.isInvalid || fault.isKindMismatch then inField name fault.message else .error fault

/-- Says that a number was expected, for values that are none. -/
def expectNumber {α : Type} (x : Checked α) (v : Value) (name : String) : Checked α :=
  match x with
  | .error fault =>
    if fault.isInvalid || fault.isKindMismatch then
      inField name ("expected a number, got " ++ v.shown)
    else .error fault
  | x => x

/-- A positive whole number; fractions are dropped. -/
def positiveWhole (v : Value) (name : String) : Checked Int := do
  let number ← expectNumber v.whole v name
  if number ≤ 0 then inField name ("must be positive, got " ++ v.shown) else return number

/-- A positive number; what is no number is not at most zero. -/
def positiveReal (v : Value) (name : String) : Checked Binary64 := do
  let number ← expectNumber v.real v name
  match number.compareInt? 0 with
  | some .gt | none => return number
  | _ => inField name ("must be positive, got " ++ v.shown)

/-! ### Reading sections -/

/-- The number of seconds that is a default. -/
def realDefault (n : Nat) : Value := .scalar (.float (.ofInt n))

def Database.parse (data : Value) : Checked Database := do
  let url ← required data "url"
  let echo ← fieldOr data "echo" (.bool false)
  let poolSize ← positiveWhole (← fieldOr data "pool_size" (.int 5)) "database.pool_size"
  let maxOverflow ← (← fieldOr data "max_overflow" (.int 10)).whole
  let poolTimeout ← positiveWhole (← fieldOr data "pool_timeout" (.int 30)) "database.pool_timeout"
  let poolRecycle ← (← fieldOr data "pool_recycle" (.int 1800)).whole
  let busyTimeoutMs ← positiveWhole (← fieldOr data "sqlite_busy_timeout_ms" (.int 30000))
    "database.sqlite_busy_timeout_ms"
  return { url, echo := echo.truthy, poolSize, maxOverflow, poolTimeout, poolRecycle,
           busyTimeoutMs }

def Ledger.parse (data : Value) : Checked Ledger := do
  let least ← required data "minimum_tip"
  let minimumTip ← amountField least "ledger.minimum_tip"
  let ticker ← Checked.ofArithmetic (← fieldOr data "ticker" (.text Amount.defaultTicker)).plain
  let minimumRoleTip ←
    amountField (← fieldOr data "minimum_role_tip" least) "ledger.minimum_role_tip"
  let minimumDrop ←
    amountField (← fieldOr data "minimum_reactdrop" least) "ledger.minimum_reactdrop"
  return { ticker, minimumTip, minimumRoleTip, minimumDrop }

def Scheduler.parse (data : Value) : Checked Scheduler := do
  let sweepInterval ← positiveReal (← fieldOr data "sweep_interval_seconds" (realDefault 30))
    "scheduler.sweep_interval_seconds"
  let batchSize ← positiveWhole (← fieldOr data "batch_size" (.int 50)) "scheduler.batch_size"
  let stalledAfter ← positiveWhole (← fieldOr data "stalled_after_seconds" (.int 900))
    "scheduler.stalled_after_seconds"
  let lookupTimeout ← positiveReal
    (← fieldOr data "participant_lookup_timeout_seconds" (realDefault 30))
    "scheduler.participant_lookup_timeout_seconds"
  return { sweepInterval, batchSize, stalledAfter, lookupTimeout }

def Notifications.parse (data : Value) : Checked Notifications := do
  return ⟨← positiveReal (← fieldOr data "delivery_timeout_seconds" (realDefault 10))
    "notifications.delivery_timeout_seconds"⟩

def Drops.parse (data : Value) : Checked Drops := do
  return ⟨← positiveWhole (← fieldOr data "max_duration_hours" (.int 168))
    "reactdrop.max_duration_hours"⟩

def Logging.parse (data : Value) : Checked Logging := do
  let written ← fieldOr data "level" (.text "INFO")
  let level := Text.capitalize (← Checked.ofArithmetic written.plain)
  match Log.levelOf? level with
  | some _ => return ⟨level⟩
  | none => inField "logging.level" ("unknown level " ++ Text.quoted level)

/-- The text that stands for a configuration: its value with keys in order. -/
def canonicalText (data : Value) : Checked String := data.json .canonical

/-- The digest of the text that stands for a configuration. -/
def checksumOf (data : Value) : Checked String := do return Sha256.digest (← canonicalText data)

def parse (data : Value) : Checked Config := do
  let id ← required data "config_id"
  let version ← (← required data "version").whole
  let database ← Database.parse (← required data "database")
  let ledger ← Ledger.parse (← required data "ledger")
  let scheduler ← Scheduler.parse (← section? data "scheduler")
  let notifications ← Notifications.parse (← section? data "notifications")
  let drops ← Drops.parse (← section? data "reactdrop")
  let logging ← Logging.parse (← section? data "logging")
  let checksum ← checksumOf data
  return { id, version, database, ledger, scheduler, notifications, drops, logging, checksum }

end TipJar.Config
