import MetadataRegistry.Config.File

/-!
Settings from the environment, which go before those of the file. A variable that is no text, or no
number where one is expected, counts as not set.
-/

namespace MetadataRegistry

abbrev Environment := List (String × List UInt8)

namespace Environment

def text? (environment : Environment) (name : String) : Option String :=
  (environment.lookup name).bind textOfBytes

def readBounded (bound : Nat) (text : String) : Option Nat :=
  let digits := match text.toList with
    | '+' :: rest => rest
    | rest => rest
  (readNatural digits).filter fun value => decide (value ≤ bound)

def word32? (environment : Environment) (name : String) : Option UInt32 :=
  ((environment.text? name).bind (readBounded greatestUInt32)).map UInt32.ofNat

def word64? (environment : Environment) (name : String) : Option UInt64 :=
  ((environment.text? name).bind (readBounded greatestUInt64)).map UInt64.ofNat

end Environment

namespace Config

def override (environment : Environment) (config : Config) : Config where
  server := {
    requestTimeoutSeconds :=
      (environment.word64? "SYSDB_REQUEST_TIMEOUT_SECONDS").getD config.server.requestTimeoutSeconds
  }
  store := { config.store with
    path := (environment.text? "SYSDB_DB_PATH").getD config.store.path
    maxConnections := (environment.word32? "SYSDB_DB_MAX_CONNECTIONS").getD config.store.maxConnections
  }
  retention := {
    databaseGraceSeconds :=
      (environment.word64? "SYSDB_DATABASE_GRACE_SECONDS").getD config.retention.databaseGraceSeconds
    sweepIntervalSeconds :=
      (environment.word64? "SYSDB_SWEEP_INTERVAL_SECONDS").getD config.retention.sweepIntervalSeconds
  }
  logging := {
    level := (environment.text? "SYSDB_LOG_LEVEL").getD config.logging.level
    format := (environment.text? "SYSDB_LOG_FORMAT").getD config.logging.format
  }

def load (file : Option (List UInt8)) (environment : Environment) : Except ConfigFileError Config :=
  match file with
  | none => .ok (override environment {})
  | some bytes => (ofFile (some bytes)).map (override environment)

end Config

end MetadataRegistry
