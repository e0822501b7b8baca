import BufferPool.Config.Pool
import BufferPool.Net.SocketAddress

/-!
# Settings

Everything that is configured: the pool, the exporter of metrics, and logging.
-/

namespace BufferPool

/-- The exporter of metrics. -/
structure MetricsConfig where
  enabled : Bool := false
  bindAddress : Net.SocketAddress := .v4 [127, 0, 0, 1] 9090
  /-- The time between two publications, in milliseconds. -/
  syncInterval : Nat := 1000
deriving DecidableEq

/-- The form of log lines. -/
inductive LogFormat where
  | json
  | pretty
deriving DecidableEq

/-- The name of a format. -/
def LogFormat.name : LogFormat → String
  | json => "Json"
  | pretty => "Pretty"

/-- Logging. -/
structure LoggingConfig where
  /-- A level or a filter. -/
  level : String := "info"
  format : LogFormat := .json
deriving DecidableEq

/-- All settings. -/
structure Config where
  pool : PoolConfig := {}
  metrics : MetricsConfig := {}
  logging : LoggingConfig := {}
deriving DecidableEq

/-- The first broken rule. The interval matters only while the exporter is enabled. -/
def Config.validate (c : Config) : Except ConfigFault Unit := do
  c.pool.validate
  if c.metrics.enabled ∧ c.metrics.syncInterval = 0 then .error .noSyncInterval

end BufferPool
