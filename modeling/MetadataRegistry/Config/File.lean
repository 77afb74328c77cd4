import MetadataRegistry.Config
import MetadataRegistry.Text
import MetadataRegistry.Toml.Reader

/-!
Settings from a file. A section is a table, or an array of its values in order; sections and values
that are left out have their defaults, and unknown ones are ignored.
-/

namespace MetadataRegistry

inductive ConfigFileError where
  | unreadable
  | malformed
  deriving DecidableEq, Repr

namespace Toml

def word32? (value : Toml) : Option UInt32 :=
  value.integer?.bind fun number =>
    if 0 ≤ number ∧ number ≤ greatestUInt32 then some (UInt32.ofNat number.toNat) else none

/-- Integers are signed, so a word of sixty-four bits is never above the greatest signed one. -/
def word64? (value : Toml) : Option UInt64 :=
  value.integer?.bind fun number => if 0 ≤ number then some (UInt64.ofNat number.toNat) else none

/-- The values of a section by the names of its settings. A date or time is a section without
settings. -/
def settings? (names : List String) : Toml → Option (List (String × Toml))
  | .table entries => some entries
  | .array items => some (names.zip items)
  | .moment _ => some []
  | _ => none

end Toml

def settingOr {α : Type} (settings : List (String × Toml)) (name : String) (read : Toml → Option α) (fallback : α) :
    Option α :=
  match settings.lookup name with
  | none => some fallback
  | some value => read value

namespace ServerSettings

def ofToml? (table : Toml) : Option ServerSettings := do
  let settings ← table.settings? ["request_timeout_seconds"]
  return { requestTimeoutSeconds :=
    ← settingOr settings "request_timeout_seconds" Toml.word64? ({} : ServerSettings).requestTimeoutSeconds }

end ServerSettings

namespace StoreSettings

def ofToml? (table : Toml) : Option StoreSettings := do
  let settings ← table.settings? ["path", "max_connections", "connection_timeout_seconds"]
  let fallback : StoreSettings := {}
  return {
    path := ← settingOr settings "path" Toml.text? fallback.path
    maxConnections := ← settingOr settings "max_connections" Toml.word32? fallback.maxConnections
    connectionTimeoutSeconds :=
      ← settingOr settings "connection_timeout_seconds" Toml.word64? fallback.connectionTimeoutSeconds
  }

end StoreSettings

namespace RetentionSettings

def ofToml? (table : Toml) : Option RetentionSettings := do
  let settings ← table.settings? ["database_grace_seconds", "sweep_interval_seconds"]
  let fallback : RetentionSettings := {}
  return {
    databaseGraceSeconds := ← settingOr settings "database_grace_seconds" Toml.word64? fallback.databaseGraceSeconds
    sweepIntervalSeconds := ← settingOr settings "sweep_interval_seconds" Toml.word64? fallback.sweepIntervalSeconds
  }

end RetentionSettings

namespace LoggingSettings

def ofToml? (table : Toml) : Option LoggingSettings := do
  let settings ← table.settings? ["level", "format"]
  let fallback : LoggingSettings := {}
  return {
    level := ← settingOr settings "level" Toml.text? fallback.level
    format := ← settingOr settings "format" Toml.text? fallback.format
  }

end LoggingSettings

namespace Config

def ofToml? (file : Toml) : Option Config := do
  let sections ← file.settings? ["server", "database", "retention", "logging"]
  return {
    server := ← settingOr sections "server" ServerSettings.ofToml? {}
    store := ← settingOr sections "database" StoreSettings.ofToml? {}
    retention := ← settingOr sections "retention" RetentionSettings.ofToml? {}
    logging := ← settingOr sections "logging" LoggingSettings.ofToml? {}
  }

def ofFile (file : Option (List UInt8)) : Except ConfigFileError Config :=
  match file.bind textOfBytes with
  | none => .error .unreadable
  | some text =>
      match (Toml.parse? text).bind ofToml? with
      | some config => .ok config
      | none => .error .malformed

end Config

end MetadataRegistry
