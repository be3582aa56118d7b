import TipJar.Config.Basic

/-! Configurations as values, field by field. -/
namespace TipJar.Config

def realValue (f : Binary64) : Value := .scalar (.float f)

def Database.value (d : Database) : Value := .record
  [("url", d.url), ("echo", .bool d.echo), ("pool_size", .int d.poolSize),
   ("max_overflow", .int d.maxOverflow), ("pool_timeout", .int d.poolTimeout),
   ("pool_recycle", .int d.poolRecycle), ("sqlite_busy_timeout_ms", .int d.busyTimeoutMs)]

def Ledger.value (l : Ledger) : Value := .record
  [("ticker", .text l.ticker), ("minimum_tip", .amount l.minimumTip),
   ("minimum_role_tip", .amount l.minimumRoleTip), ("minimum_reactdrop", .amount l.minimumDrop)]

def Scheduler.value (s : Scheduler) : Value := .record
  [("sweep_interval_seconds", realValue s.sweepInterval), ("batch_size", .int s.batchSize),
   ("stalled_after_seconds", .int s.stalledAfter),
   ("participant_lookup_timeout_seconds", realValue s.lookupTimeout)]

def Notifications.value (n : Notifications) : Value :=
  .record [("delivery_timeout_seconds", realValue n.deliveryTimeout)]

def Drops.value (d : Drops) : Value := .record [("max_duration_hours", .int d.maxHours)]

def Logging.value (l : Logging) : Value := .record [("level", .text l.level)]

end TipJar.Config

namespace TipJar

/-- A configuration as a value. -/
def Config.value (c : Config) : Value := .record
  [("config_id", c.id), ("version", .int c.version), ("database", c.database.value),
   ("ledger", c.ledger.value), ("scheduler", c.scheduler.value),
   ("notifications", c.notifications.value), ("reactdrop", c.drops.value),
   ("logging", c.logging.value), ("checksum", .text c.checksum)]

end TipJar
