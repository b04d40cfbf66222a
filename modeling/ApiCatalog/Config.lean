import ApiCatalog.Client.Error
import ApiCatalog.Content
import ApiCatalog.Schema
import ApiCatalog.Text.Numeral
import ApiCatalog.Time.Duration
import ApiCatalog.Toml.Reader

/-!
# Configuration

A configuration starts from defaults, takes the settings of a file, and then those environment
variables that can be read; the others are ignored.
-/
namespace ApiCatalog

structure Config where
  /-- The state file. -/
  statePath : String
  bindTimeout : Duration
  pollInterval : Duration
  schemaPolicy : SchemaPolicy
  /-- So many failures in a row end a watch. -/
  maxConsecutiveErrors : Nat
  deriving DecidableEq, Repr

namespace Config

def default : Config :=
  ⟨".kcp-catalog.yaml", .ofSeconds 30, .ofMillis 500, .drop, 10⟩

instance : Inhabited Config := ⟨default⟩

/-- The configuration that settings give; settings with other names do not matter. -/
def ofSettings? (settings : Settings) : Option Config := do
  let bindSeconds ← settings.orElse "bind_timeout" Toml.word? 30
  let pollMillis ← settings.orElse "poll_interval" Toml.word? 500
  let maxErrors ← settings.orElse "max_consecutive_errors" Toml.word? 10
  let policy? (value : Toml) := value.constructor?.bind SchemaPolicy.ofName?
  pure {
    statePath := ← settings.orElse "state_path" Toml.text? default.statePath
    bindTimeout := .ofSeconds bindSeconds.toNat
    pollInterval := .ofMillis pollMillis.toNat
    schemaPolicy := ← settings.orElse "schema_policy" policy? .drop
    maxConsecutiveErrors := maxErrors.toNat }

/-- The configuration in a file. -/
def ofFile (path : String) : Except FileFault Content → Except ClientError Config
  | .error fault => .error (.config path fault.message)
  | .ok (.text text) =>
    match (Toml.ofText? text).bind ofSettings? with
    | some config => .ok config
    | none => .error (.config path "Failed to parse config: not settings of the program")
  | .ok (.document _) => .error (.config path "Failed to parse config: not settings")

def stateVariable : String := "KCP_CATALOG_STATE"

def bindTimeoutVariable : String := "KCP_CATALOG_BIND_TIMEOUT"

def pollIntervalVariable : String := "KCP_CATALOG_POLL_INTERVAL_MS"

def schemaPolicyVariable : String := "KCP_CATALOG_SCHEMA_POLICY"

def maxErrorsVariable : String := "KCP_CATALOG_MAX_CONSECUTIVE_ERRORS"

/-- The variables that `withEnvironment` looks at. -/
def variableNames : List String :=
  [stateVariable, bindTimeoutVariable, pollIntervalVariable, schemaPolicyVariable,
    maxErrorsVariable]

/-- Applies the variables that are set. -/
def withEnvironment (config : Config) (environment? : String → Option String) : Config :=
  let word (name : String) : Option Nat := ((environment? name).bind Text.word?).map UInt64.toNat
  { statePath := (environment? stateVariable).getD config.statePath
    bindTimeout := ((word bindTimeoutVariable).map .ofSeconds).getD config.bindTimeout
    pollInterval := ((word pollIntervalVariable).map .ofMillis).getD config.pollInterval
    schemaPolicy := ((environment? schemaPolicyVariable).bind fun text =>
      (SchemaPolicy.ofString text).toOption).getD config.schemaPolicy
    maxConsecutiveErrors := (word maxErrorsVariable).getD config.maxConsecutiveErrors }

end Config
end ApiCatalog
