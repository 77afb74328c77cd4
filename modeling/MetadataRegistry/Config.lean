import MetadataRegistry.Binary64

/-!
Settings of the service: their defaults, what follows from them, and the faults that a set of
settings can have. Faults are looked for in a fixed order and the first one is told.
-/

namespace MetadataRegistry

structure ServerSettings where
  requestTimeoutSeconds : UInt64 := 30
  deriving DecidableEq, Repr

structure StoreSettings where
  path : String := "sqlite://sysdb.db"
  maxConnections : UInt32 := 8
  connectionTimeoutSeconds : UInt64 := 5
  deriving DecidableEq, Repr

structure RetentionSettings where
  databaseGraceSeconds : UInt64 := 86400
  sweepIntervalSeconds : UInt64 := 300
  deriving DecidableEq, Repr

structure LoggingSettings where
  level : String := "info"
  format : String := "pretty"
  deriving DecidableEq, Repr

structure Config where
  server : ServerSettings := {}
  store : StoreSettings := {}
  retention : RetentionSettings := {}
  logging : LoggingSettings := {}
  deriving DecidableEq, Repr

structure ConnectionPool where
  maxConnections : UInt32
  acquireTimeoutMillis : Nat
  busyTimeoutMillis : Nat
  deriving DecidableEq, Repr

def busyTimeoutMillis : Nat := 5000

def StoreSettings.pool (settings : StoreSettings) : ConnectionPool :=
  ⟨settings.maxConnections, settings.connectionTimeoutSeconds.toNat * 1000, MetadataRegistry.busyTimeoutMillis⟩

/-- The greatest number of seconds, forward or backward, whose milliseconds fit a signed word. -/
def longestGrace : Nat := 9223372036854775

def gracePeriod? (seconds : Int) : Option Int :=
  if seconds.natAbs ≤ longestGrace then some seconds else none

def configuredGrace (seconds : UInt64) : Int := min (seconds.toNat : Int) greatestInt64

def RetentionSettings.databaseGrace? (settings : RetentionSettings) : Option Int :=
  gracePeriod? (configuredGrace settings.databaseGraceSeconds)

def logLevels : List String := ["trace", "debug", "info", "warn", "error"]

def logFormats : List String := ["json", "pretty"]

/-- Whether messages of a level are written when a threshold is set: those at or above it are. -/
def LoggingSettings.writes (settings : LoggingSettings) (level : String) : Bool :=
  decide (logLevels.idxOf settings.level ≤ logLevels.idxOf level)

inductive ConfigFault where
  | empty (setting : String)
  | zero (setting : String)
  | unknownWord (setting : String) (words : List String)
  deriving DecidableEq, Repr

namespace ConfigFault

def description : ConfigFault → String
  | empty setting => s!"{setting} cannot be empty"
  | zero setting => s!"{setting} must be > 0"
  | unknownWord setting words => s!"{setting} must be one of: " ++ ", ".intercalate words

def message (fault : ConfigFault) : String := "Configuration validation failed: " ++ fault.description

end ConfigFault

def faultIf (holds : Bool) (fault : ConfigFault) : List ConfigFault := if holds then [fault] else []

namespace Config

def faults (config : Config) : List ConfigFault :=
  faultIf config.store.path.isEmpty (.empty "database.path") ++
    faultIf (config.store.maxConnections == 0) (.zero "database.max_connections") ++
    faultIf (config.store.connectionTimeoutSeconds == 0) (.zero "database.connection_timeout_seconds") ++
    faultIf (config.server.requestTimeoutSeconds == 0) (.zero "server.request_timeout_seconds") ++
    faultIf (config.retention.sweepIntervalSeconds == 0) (.zero "retention.sweep_interval_seconds") ++
    faultIf (!logLevels.contains config.logging.level) (.unknownWord "logging.level" logLevels) ++
    faultIf (!logFormats.contains config.logging.format) (.unknownWord "logging.format" logFormats)

def validate (config : Config) : Except ConfigFault Unit :=
  match config.faults with
  | [] => .ok ()
  | fault :: _ => .error fault

end Config

end MetadataRegistry
