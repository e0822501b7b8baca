import BufferPool.Config.Settings
import BufferPool.Logging.Filter
import BufferPool.Text.Written

/-!
# Setting up logging

Logging is set up once and stays so. What is logged is given by a filter: the one of the environment if
there is a valid one, else the one that is configured.
-/

namespace BufferPool.Logging

/-- Why logging was not set up. -/
inductive InstallError where
  /-- The level that is configured is no filter, and the environment gives none. -/
  | invalidLevel (level : String)
  /-- Logging has been set up before. -/
  | alreadyInstalled
deriving DecidableEq

/-- What is said when logging was not set up. -/
def InstallError.message : InstallError → String
  | invalidLevel level => "Invalid log level: " ++ Text.quoted level
  | alreadyInstalled => "Tracing subscriber already installed"

/-- The filter in force: that of the environment comes before the level that is configured. -/
def chosenFilter? (environment : Option String) (level : String) : Checked (Option String) := do
  if let some filter := environment then
    if ← isFilter filter then return some filter
  return if ← isFilter level then some level else none

/-- What is logged and how, once logging is set up. -/
structure Sink where
  filter : String
  format : LogFormat
deriving DecidableEq

/-- Sets up logging, given what is set up so far. -/
def install (environment : Option String) (current : Option Sink) (config : LoggingConfig) :
    Checked (Except InstallError Sink) := do
  match ← chosenFilter? environment config.level, current with
  | none, _ => return .error (.invalidLevel config.level)
  | some _, some _ => return .error .alreadyInstalled
  | some filter, none => return .ok ⟨filter, config.format⟩

end BufferPool.Logging
