import MetadataRegistry.Sweeper
import Std.Time.DateTime.Timestamp

/-!
The command line of the sweeper. It reads `sysdb.toml` in the working directory and the environment,
sweeps the store they name once, and writes how that ended. Stores are held in memory, so a sweep
finds only what this process put there.
-/

namespace MetadataRegistry

namespace CommandLine

def configFileName : String := "sysdb.toml"

def variableNames : List String :=
  ["SYSDB_DB_PATH", "SYSDB_DB_MAX_CONNECTIONS", "SYSDB_REQUEST_TIMEOUT_SECONDS", "SYSDB_DATABASE_GRACE_SECONDS",
    "SYSDB_SWEEP_INTERVAL_SECONDS", "SYSDB_LOG_LEVEL", "SYSDB_LOG_FORMAT"]

def readFile? (path : String) : IO (Option (List UInt8)) := do
  try
    let bytes ← IO.FS.readBinFile path
    return some bytes.data.toList
  catch
    | .noFileOrDirectory .. => return none
    | failure => throw failure

def readEnvironment : IO Environment :=
  variableNames.filterMapM fun name => do
    return (← IO.getEnv name).map fun value => (name, bytesOfText value)

def currentInstant : IO Instant := do
  let timestamp ← Std.Time.Timestamp.now
  let nanos := timestamp.toNanosecondsSinceUnixEpoch.val
  match Instant.ofEpochNanos? nanos with
  | some instant => return instant
  | none => throw (IO.userError "the clock is out of range")

def sweeper : IO UInt32 := do
  let host : Host := ⟨← readFile? configFileName, ← readEnvironment, ← currentInstant, ⟨[], ["", "/"]⟩⟩
  if host.config.2 then IO.eprintln "Warning: Failed to load config. Using defaults."
  let (exit, _) := host.runSweeper
  if let some removed := exit.removed? then IO.println s!"removed {removed}"
  if let some complaint := exit.complaint? then IO.eprintln complaint
  return UInt32.ofNat exit.exitCode

end CommandLine

end MetadataRegistry

def main : IO UInt32 := MetadataRegistry.CommandLine.sweeper
