import TipJar.Fault.Basic

/-! What a ledger is configured with.

A configuration names itself and has six sections. Its checksum identifies the
exact text it was read from. -/
namespace TipJar

namespace Config

/-- Where the tables are and how connections to them are kept. -/
structure Database where
  url : Value
  echo : Bool
  poolSize : Int
  maxOverflow : Int
  poolTimeout : Int
  poolRecycle : Int
  busyTimeoutMs : Int

/-- How amounts are shown, and the least amount of each command. -/
structure Ledger where
  ticker : String
  minimumTip : Amount
  minimumRoleTip : Amount
  minimumDrop : Amount

/-- How due drops are swept up. -/
structure Scheduler where
  sweepInterval : Binary64
  batchSize : Int
  stalledAfter : Int
  lookupTimeout : Binary64

/-- The seconds each message may take. -/
structure Notifications where
  deliveryTimeout : Binary64

/-- The hours a drop may last. -/
structure Drops where
  maxHours : Int

/-- The least grave level that is logged. -/
structure Logging where
  level : String

end Config

structure Config where
  id : Value
  version : Int
  database : Config.Database
  ledger : Config.Ledger
  scheduler : Config.Scheduler
  notifications : Config.Notifications
  drops : Config.Drops
  logging : Config.Logging
  checksum : String

end TipJar
