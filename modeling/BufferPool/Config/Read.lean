import BufferPool.Config.Settings
import BufferPool.Text.Written
import BufferPool.Toml.Document

/-!
# Reading settings

Settings are read from a TOML document with a section for the pool, one for metrics, and one for logging.
What is missing has its default; unknown names are passed over. A section may also be an array, whose
elements are the settings of the section in the order of their declaration, as far as they go.
-/

namespace BufferPool

/-- Why there are no settings. -/
inductive ConfigError where
  /-- The file cannot be read, or is no text. -/
  | unreadable (path : String)
  /-- The text is no document, or a setting is of the wrong kind. -/
  | malformed
  /-- The settings break a rule. -/
  | invalid (fault : ConfigFault)
deriving DecidableEq

/-- What is said when there are no settings. -/
def ConfigError.message : ConfigError → String
  | unreadable path => "Failed to read config file: " ++ Text.quoted path
  | malformed => "Failed to parse config file"
  | invalid fault => fault.message

namespace Config

open Toml (Value Entries)

/-- A section: the value of each name it has. -/
abbrev Section := String → Option Value

/-- The section that a value is, its settings being declared in the order of `names`. A date is a section
without any setting. -/
def section? (names : List String) : Value → Option Section
  | .table _ entries => some fun name => entries.lookup name
  | .array elements => some fun name => (names.zip elements).lookup name
  | .tables elements =>
    some fun name => (names.zip (elements.map (Value.table .header))).lookup name
  | .moment => some fun _ => none
  | _ => none

/-- A setting, its default if it is missing, nothing if it is of the wrong kind. -/
def setting {α : Type} (s : Section) (name : String) (read : Value → Option α) (preset : α) :
    Option α :=
  match s name with
  | some value => read value
  | none => some preset

/-- A natural number below `limit`. -/
def natural (limit : Nat) : Value → Option Nat
  | .integer (.ofNat n) => if n < limit then some n else none
  | _ => none

/-- A truth value. -/
def boolean : Value → Option Bool
  | .boolean b => some b
  | _ => none

/-- A text. -/
def text : Value → Option String
  | .text s => some s
  | _ => none

/-- A socket address. -/
def address (v : Value) : Option Net.SocketAddress :=
  (text v).bind Net.SocketAddress.parse?

/-- The format of a given name. -/
def formatNamed : String → Option LogFormat
  | "json" => some .json
  | "pretty" => some .pretty
  | _ => none

/-- Whether a value is an array or a table without contents. -/
def isEmpty : Value → Bool
  | .array elements => elements.isEmpty
  | .table _ entries => entries.isEmpty
  | .tables elements => elements.isEmpty
  | _ => false

/-- A format: its name, or a table with its name for an empty array or table. -/
def format : Value → Option LogFormat
  | .text s => formatNamed s
  | .table _ [(name, content)] => if isEmpty content then formatNamed name else none
  | _ => none

/-- The settings of a pool. -/
def readPool (s : Section) : Option PoolConfig := do
  let preset : PoolConfig := {}
  return {
    pageSize := ← setting s "page_size" (natural Word.bound) preset.pageSize
    maxOrder := ← setting s "max_order" (natural (1 <<< 32)) preset.maxOrder
    maxChunks := ← setting s "max_chunks" (natural Word.bound) preset.maxChunks
    recyclerCapacity :=
      ← setting s "recycler_capacity" (natural Word.bound) preset.recyclerCapacity
    keepLastSubpage := ← setting s "retain_sole_subpage" boolean preset.keepLastSubpage
    defaultMaxCapacity :=
      ← setting s "default_max_capacity" (natural Word.bound) preset.defaultMaxCapacity }

/-- The settings of a pool in the order of their declaration. -/
def poolNames : List String :=
  ["page_size", "max_order", "max_chunks", "recycler_capacity", "retain_sole_subpage",
    "default_max_capacity"]

/-- The settings of the exporter of metrics. -/
def readMetrics (s : Section) : Option MetricsConfig := do
  let preset : MetricsConfig := {}
  return {
    enabled := ← setting s "enabled" boolean preset.enabled
    bindAddress := ← setting s "bind_addr" address preset.bindAddress
    syncInterval := ← setting s "sync_interval_ms" (natural Word.bound) preset.syncInterval }

/-- The settings of the exporter in the order of their declaration. -/
def metricsNames : List String := ["enabled", "bind_addr", "sync_interval_ms"]

/-- The settings of logging. -/
def readLogging (s : Section) : Option LoggingConfig := do
  let preset : LoggingConfig := {}
  return {
    level := ← setting s "level" text preset.level
    format := ← setting s "format" format preset.format }

/-- The settings of logging in the order of their declaration. -/
def loggingNames : List String := ["level", "format"]

/-- The settings of a document. -/
def ofEntries (entries : Entries) : Option Config := do
  let part {α : Type} (name : String) (names : List String) (read : Section → Option α)
      (preset : α) : Option α :=
    setting (fun n => entries.lookup n) name (fun v => (section? names v).bind read) preset
  return {
    pool := ← part "pool" poolNames readPool {}
    metrics := ← part "metrics" metricsNames readMetrics {}
    logging := ← part "logging" loggingNames readLogging {} }

/-- The settings that a text gives. -/
def ofToml (source : String) : Except ConfigError Config :=
  match (Toml.parse source).bind ofEntries with
  | none => .error .malformed
  | some config =>
    match config.validate with
    | .ok () => .ok config
    | .error fault => .error (.invalid fault)

/-- The settings that a file gives; `content` is absent if there is no such file. -/
def load (path : String) (content : Option ByteArray) : Except ConfigError Config :=
  match content.bind String.fromUTF8? with
  | some source => ofToml source
  | none => .error (.unreadable path)

/-- Whether preparing the exporter is done at once: there is nothing to prepare while it is disabled. -/
def exporterIdle (c : Config) : Bool := !c.metrics.enabled

end Config

end BufferPool
