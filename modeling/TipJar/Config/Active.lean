import TipJar.Config.Parser
import TipJar.Log.Line
import TipJar.Yaml.Reader

/-! The active configuration.

A configuration is read from a file, given by its path or by the environment, or
is the one that comes with the library. The location of the tables can be
overridden. Every configuration that becomes active is logged with its checksum. -/
namespace TipJar.Config

/-- The configuration that comes with the library. -/
def bundledText : String :=
"# Default tip ledger configuration.
# Amounts are in coins and must be quoted.

config_id: tipledger-default
version: 1

database:
  url: sqlite:///tipledger.db
  echo: false
  pool_size: 5
  max_overflow: 10
  pool_timeout: 30
  pool_recycle: 1800
  sqlite_busy_timeout_ms: 30000

ledger:
  ticker: VRSC
  minimum_tip: \"0.00000001\"
  minimum_role_tip: \"0.5\"
  minimum_reactdrop: \"0.1\"

scheduler:
  sweep_interval_seconds: 30
  batch_size: 50
  stalled_after_seconds: 900
  participant_lookup_timeout_seconds: 30

notifications:
  delivery_timeout_seconds: 10

reactdrop:
  max_duration_hours: 168

logging:
  level: INFO
"

/-- Reads a configuration text; a text that holds nothing stands for an empty mapping. -/
def ofText (text : String) : Checked Config := do
  let data ← Yaml.read text
  parse (if data.truthy then data else .map [])

/-- The configuration with another location of the tables, if one that is not empty is given. -/
def withLocation (c : Config) (url : Option String) : Config × Bool :=
  match url with
  | some url => if url.isEmpty then (c, false) else
      ({ c with database := { c.database with url := .text url } }, true)
  | none => (c, false)

/-- The event logged when a configuration becomes active. -/
def traceEvent (c : Config) (overridden : Bool) : Log.Event :=
  .of .info "config" "TIPLEDGER_CONFIG_TRACE"
    [("trace_type", .text "TIPLEDGER_CONFIG_TRACE"), ("config_set_id", c.id),
     ("config_set_version", .int c.version), ("checksum", .text c.checksum),
     ("database_url_overridden", .bool overridden)]

/-- Makes the configuration of a text active: the configuration and what is logged. -/
def activate (text : String) (url : Option String) : Checked (Config × Log.Event) := do
  let (config, overridden) := (← ofText text).withLocation url
  return (config, traceEvent config overridden)

/-- A path without empty parts and parts that stay where they are. -/
def normalPath (path : String) : String :=
  let parts := (path.splitOn "/").filter fun p => p != "" && p != "."
  let absolute := path.toList.head? == some '/'
  let twice := path.toList.take 2 == ['/', '/'] && path.toList.take 3 != ['/', '/', '/']
  let body := "/".intercalate parts
  if absolute then (if twice then "//" else "/") ++ body
  else if parts.isEmpty then "." else body

end TipJar.Config
