import TimedCache.Engine
import TimedCache.Text.Blank

/-!
# Configuration

The settings of the server come from **environment variables**.  A variable that is not set, is no
text, or cannot be read as what it should be, takes its default; only an unknown kind of backend
is refused.

| Variable | Meaning | Default |
|---|---|---|
| `CACHE_TYPE` | kind of the backend | `local` |
| `REDIS_ADDR`, `REDIS_PASS`, `REDIS_DB` | where the server is | none, none, 0 |
| `CACHE_DEFAULT_TTL` | default lifetime in seconds | 300 |
| `CACHE_MAX_SIZE` | advisory size | 1000 |
| `CACHE_PREFIX` | namespace | `cache:` |
| `CACHE_SWEEP_INTERVAL` | seconds between sweeps | 60 |
| `SERVER_PORT` | port of the server | 3000 |

## Main Definitions

* `BackendKind.read` — the kind of backend that a word stands for
* `CacheConfig`, `ServerConfig` — the settings
* `ServerConfig.ofEnvironment` — reads the settings
-/

namespace TimedCache

/-- The kind of backend that a word stands for; case and surrounding blanks do not matter. -/
def BackendKind.read (text : Bytes) : Except CacheError BackendKind :=
  let word := text.trim.lower
  if word = utf8 "local" || word = utf8 "memory" then .ok .inProcess
  else if word = utf8 "remote" || word = utf8 "redis" then .ok .onServer
  else .error (.invalidConfiguration (utf8 "unknown cache type '" ++ word ++ utf8 "'"))

/-- The settings of the cache. -/
structure CacheConfig where
  kind : BackendKind
  address : Option Bytes
  password : Option Bytes
  database : Int
  /-- The default lifetime in seconds. -/
  defaultLifetime : Nat
  maxSize : Nat
  namespaceText : Bytes
  /-- Seconds between two sweeps. -/
  sweepInterval : Nat
  deriving DecidableEq, Repr, Inhabited

namespace CacheConfig

/-- The settings when nothing is configured. -/
def standard : CacheConfig where
  kind := .inProcess
  address := none
  password := none
  database := 0
  defaultLifetime := 300
  maxSize := 1000
  namespaceText := utf8 "cache:"
  sweepInterval := 60

/-- The options of the configured backend. -/
def options (config : CacheConfig) : Options :=
  ⟨.ofSecs config.defaultLifetime, config.maxSize, config.namespaceText⟩

/-- How to reach the server; a remote backend needs an address. -/
def remote (config : CacheConfig) : Except CacheError Remote.Settings :=
  match config.address.filter fun address => !address.isBlankText with
  | some address => .ok ⟨address, config.password, config.database, .ofSecs 5⟩
  | none =>
    .error (.invalidConfiguration (utf8 "REDIS_ADDR is required for a remote cache"))

end CacheConfig

/-- The settings of the server. -/
structure ServerConfig where
  port : Nat
  cache : CacheConfig
  deriving DecidableEq, Repr, Inhabited

/-- The values of environment variables. -/
abbrev Environment := (name : String) → Option Bytes

namespace Environment

/-- The value of a variable, if it is a text. -/
def text? (environment : Environment) (name : String) : Option Bytes :=
  (environment name).filter Bytes.isText

/-- The value of a variable as an unsigned integer. -/
def nat? (environment : Environment) (bound : Nat) (name : String) : Option Nat :=
  (environment.text? name).bind (readNat? bound)

/-- The value of a variable as a signed integer. -/
def int? (environment : Environment) (name : String) : Option Int :=
  (environment.text? name).bind readInt64?

end Environment

namespace ServerConfig

/-- The configured kind of backend. -/
def kindOf (environment : Environment) : Except CacheError BackendKind :=
  match environment.text? "CACHE_TYPE" with
  | some word => if word.isBlankText then .ok CacheConfig.standard.kind else BackendKind.read word
  | none => .ok CacheConfig.standard.kind

/-- Reads the settings. -/
def ofEnvironment (environment : Environment) : Except CacheError ServerConfig :=
  let standard := CacheConfig.standard
  match kindOf environment with
  | .error failure => .error failure
  | .ok kind =>
    .ok
      { port := (environment.nat? word16 "SERVER_PORT").getD 3000
        cache :=
          { kind := kind
            address := environment.text? "REDIS_ADDR"
            password := (environment.text? "REDIS_PASS").filter fun word => !word.isEmpty
            database := (environment.int? "REDIS_DB").getD standard.database
            defaultLifetime :=
              (environment.nat? word64 "CACHE_DEFAULT_TTL").getD standard.defaultLifetime
            maxSize := (environment.nat? word64 "CACHE_MAX_SIZE").getD standard.maxSize
            namespaceText := (environment.text? "CACHE_PREFIX").getD standard.namespaceText
            sweepInterval :=
              ((environment.nat? word64 "CACHE_SWEEP_INTERVAL").filter fun n => 0 < n).getD
                standard.sweepInterval } }

end ServerConfig

end TimedCache
