import MetadataRegistry.Config.Environment
import MetadataRegistry.Service
import MetadataRegistry.Store.Location

/-!
The sweeper: it loads its settings, opens the store they name and sweeps it. Settings that cannot be
loaded are replaced by the defaults, with a warning; settings with a fault, and a store that cannot
be opened, end it with a message.
-/

namespace MetadataRegistry

structure Host where
  configFile : Option (List UInt8)
  environment : Environment
  now : Instant
  files : StoreFiles

inductive SweeperExit where
  /-- It swept and was told to stop. The number of removed databases is known if the sweep succeeded
  and its message was written. -/
  | stopped (removed : Option Nat)
  | refused (message : String)
  | brokeOff
  deriving DecidableEq, Repr

namespace SweeperExit

def exitCode : SweeperExit → Nat
  | stopped _ => 0
  | refused _ => 1
  | brokeOff => 101

def removed? : SweeperExit → Option Nat
  | stopped removed => removed
  | _ => none

def complaint? : SweeperExit → Option String
  | refused message => some ("Error: " ++ message)
  | _ => none

end SweeperExit

def longestConnectionTimeout : Nat := 9223372036854775806

namespace Host

def config (host : Host) : Config × Bool :=
  match Config.load host.configFile host.environment with
  | .ok config => (config, false)
  | .error _ => ({}, true)

def sweepStore (config : Config) (host : Host) (store : Store) : SweeperExit × Store :=
  match config.retention.databaseGrace? with
  | none => (.brokeOff, store)
  | some grace =>
      match sweep grace ⟨host.now, [], true⟩ store with
      | (.removed count, after) => (.stopped (if config.logging.writes "info" then some count else none), after)
      | (.failed, after) => (.stopped none, after)
      | (.aborted, after) => (.brokeOff, after)

def sweepAt (config : Config) (host : Host) (location : StoreLocation) : SweeperExit × StoreFiles :=
  if longestConnectionTimeout < config.store.connectionTimeoutSeconds.toNat then (.brokeOff, host.files)
  else
    match host.files.open? location with
    | none => (.refused "failed to open metadata store", host.files)
    | some store =>
        let (exit, after) := host.sweepStore config store
        (exit, host.files.save location after)

def runSweeper (host : Host) : SweeperExit × StoreFiles :=
  let (config, _) := host.config
  match config.validate with
  | .error fault => (.refused fault.message, host.files)
  | .ok () =>
      match StoreLocation.ofUrl? config.store.path with
      | none => (.refused "failed to open metadata store", host.files)
      | some location => host.sweepAt config location

end Host

end MetadataRegistry
