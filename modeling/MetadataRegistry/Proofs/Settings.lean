import MetadataRegistry.Config.Environment

/-!
Where the settings come from. Each setting is looked for by its variable, then by its name in its
section of the file, and has its default otherwise; no setting depends on another's variable.
-/

namespace MetadataRegistry

theorem textOfBytes_eq_some_iff (bytes : List UInt8) (text : String) :
    textOfBytes bytes = some text ↔ bytes = bytesOfText text := by
  have same_bytes : bytes = text.toByteArray.data.toList ↔ (⟨bytes.toArray⟩ : ByteArray) = text.toByteArray := by
    rw [ByteArray.ext_iff, ← Array.toList_inj]
  change (if valid : _ then _ else _) = some text ↔ bytes = text.toByteArray.data.toList
  rw [same_bytes]
  constructor
  · intro read
    split at read
    · exact congrArg String.toByteArray (Option.some.inj read)
    · cases read
  · intro written
    simp only [written, dif_pos text.isValidUTF8]
    rfl

def IsNumeral (text : String) (value : Nat) : Prop :=
  ∃ digits, (text.toList = digits ∨ text.toList = '+' :: digits) ∧ digits ≠ [] ∧
    (∀ digit ∈ digits, digit.isDigit = true) ∧ Nat.ofDigitChars 10 digits 0 = value

theorem readNatural_eq_some_iff (digits : List Char) (value : Nat) :
    readNatural digits = some value ↔
      digits ≠ [] ∧ (∀ digit ∈ digits, digit.isDigit = true) ∧ Nat.ofDigitChars 10 digits 0 = value := by
  simp [readNatural, ofDecimalDigits, and_assoc]

namespace Environment

theorem readBounded_eq_some_iff (bound : Nat) (text : String) (value : Nat) :
    readBounded bound text = some value ↔ IsNumeral text value ∧ value ≤ bound := by
  unfold readBounded IsNumeral
  simp only [Option.filter_eq_some_iff, decide_eq_true_eq]
  refine and_congr_left fun _ => ?_
  rw [readNatural_eq_some_iff]
  split
  · -- A plus sign is no digit, so the digits are those after it.
    rename_i rest spelled
    simp only [spelled]
    constructor
    · exact fun digits_of => ⟨rest, .inr rfl, digits_of⟩
    · rintro ⟨digits, rfl | same, some_digits, all, number⟩
      · exact absurd (all '+' (List.mem_cons_self ..)) (by decide)
      · cases same
        exact ⟨some_digits, all, number⟩
  · rename_i unsigned
    constructor
    · exact fun digits_of => ⟨text.toList, .inl rfl, digits_of⟩
    · rintro ⟨digits, same | same, digits_of⟩
      · rwa [same]
      · exact absurd same (unsigned digits)

theorem text?_eq_some_iff (environment : Environment) (name : String) (value : String) :
    environment.text? name = some value ↔ environment.lookup name = some (bytesOfText value) := by
  simp [text?, Option.bind_eq_some_iff, textOfBytes_eq_some_iff]

theorem bind_readBounded_eq_some_iff {Word : Type} {ofNat : Nat → Word} {toNat : Word → Nat} {bound : Nat}
    (ofNat_toNat : ∀ word, ofNat (toNat word) = word) (toNat_le : ∀ word, toNat word ≤ bound)
    (toNat_ofNat : ∀ value ≤ bound, toNat (ofNat value) = value) (environment : Environment) (name : String)
    (word : Word) :
    ((environment.text? name).bind (readBounded bound)).map ofNat = some word ↔
      ∃ spelled, environment.lookup name = some (bytesOfText spelled) ∧ IsNumeral spelled (toNat word) := by
  simp only [Option.map_eq_some_iff, Option.bind_eq_some_iff, text?_eq_some_iff, readBounded_eq_some_iff]
  constructor
  · rintro ⟨value, ⟨spelled, given, numeral, fits⟩, rfl⟩
    exact ⟨spelled, given, by rwa [toNat_ofNat value fits]⟩
  · rintro ⟨spelled, given, numeral⟩
    exact ⟨toNat word, ⟨spelled, given, numeral, toNat_le word⟩, ofNat_toNat word⟩

theorem word32?_eq_some_iff (environment : Environment) (name : String) (value : UInt32) :
    environment.word32? name = some value ↔
      ∃ spelled, environment.lookup name = some (bytesOfText spelled) ∧ IsNumeral spelled value.toNat :=
  bind_readBounded_eq_some_iff (fun _ => UInt32.ofNat_toNat) (fun word => Nat.le_of_lt_succ word.toNat_lt)
    (fun _ fits => UInt32.toNat_ofNat_of_lt (Nat.lt_succ_of_le fits)) environment name value

theorem word64?_eq_some_iff (environment : Environment) (name : String) (value : UInt64) :
    environment.word64? name = some value ↔
      ∃ spelled, environment.lookup name = some (bytesOfText spelled) ∧ IsNumeral spelled value.toNat :=
  bind_readBounded_eq_some_iff (fun _ => UInt64.ofNat_toNat) (fun word => Nat.le_of_lt_succ word.toNat_lt)
    (fun _ fits => UInt64.toNat_ofNat_of_lt (Nat.lt_succ_of_le fits)) environment name value

end Environment

namespace Toml

theorem text?_eq_some_iff (item : Toml) (text : String) : item.text? = some text ↔ item = .string text := by
  cases item <;> simp [text?]

theorem integer?_eq_some_iff (item : Toml) (value : Int) :
    item.integer? = some value ↔ ∃ number : Int64, item = .integer number ∧ number.toInt = value := by
  cases item <;> simp [integer?]

theorem bind_integer?_eq_some_iff {Word : Type} {read : Int → Option Word} {toNat : Word → Nat}
    (read_iff : ∀ (number : Int64) (word : Word), read number.toInt = some word ↔ number.toInt = toNat word)
    (item : Toml) (word : Word) :
    item.integer?.bind read = some word ↔ ∃ number : Int64, item = .integer number ∧ number.toInt = toNat word := by
  simp only [Option.bind_eq_some_iff, integer?_eq_some_iff]
  constructor
  · rintro ⟨_, ⟨number, whole, rfl⟩, fits⟩
    exact ⟨number, whole, (read_iff number word).mp fits⟩
  · rintro ⟨number, whole, same⟩
    exact ⟨_, ⟨number, whole, rfl⟩, (read_iff number word).mpr same⟩

theorem word32?_eq_some_iff (item : Toml) (word : UInt32) :
    item.word32? = some word ↔ ∃ number : Int64, item = .integer number ∧ number.toInt = word.toNat := by
  refine bind_integer?_eq_some_iff (fun number word => ?_) item word
  have bound := word.toNat_lt
  unfold greatestUInt32
  split
  · rename_i fits
    have small : number.toInt.toNat < 2 ^ 32 := by omega
    rw [Option.some.injEq, ← UInt32.toNat_inj, UInt32.toNat_ofNat_of_lt' small]
    omega
  · exact iff_of_false nofun (by omega)

theorem word64?_eq_some_iff (item : Toml) (word : UInt64) :
    item.word64? = some word ↔ ∃ number : Int64, item = .integer number ∧ number.toInt = word.toNat := by
  refine bind_integer?_eq_some_iff (fun number word => ?_) item word
  have bound := number.toInt_lt
  split
  · rename_i natural
    have small : number.toInt.toNat < 2 ^ 64 := by omega
    rw [Option.some.injEq, ← UInt64.toNat_inj, UInt64.toNat_ofNat_of_lt' small]
    omega
  · exact iff_of_false nofun (by omega)

end Toml

inductive SettingKind where
  | text
  | word32
  | word64

namespace SettingKind

def Value : SettingKind → Type
  | text => String
  | word32 => UInt32
  | word64 => UInt64

instance : (kind : SettingKind) → DecidableEq kind.Value
  | text => inferInstanceAs (DecidableEq String)
  | word32 => inferInstanceAs (DecidableEq UInt32)
  | word64 => inferInstanceAs (DecidableEq UInt64)

def ofToml? : (kind : SettingKind) → Toml → Option kind.Value
  | text => Toml.text?
  | word32 => Toml.word32?
  | word64 => Toml.word64?

def ofVariable? : (kind : SettingKind) → Environment → String → Option kind.Value
  | text => Environment.text?
  | word32 => Environment.word32?
  | word64 => Environment.word64?

/-- Whether a value of a file gives this one: a string its text, an integer the number that it is. -/
def IsGiven : (kind : SettingKind) → Toml → kind.Value → Prop
  | text, item, value => item = .string value
  | word32, item, value => ∃ number : Int64, item = .integer number ∧ number.toInt = (UInt32.toNat value : Int)
  | word64, item, value => ∃ number : Int64, item = .integer number ∧ number.toInt = (UInt64.toNat value : Int)

/-- Whether a text means this value: it is the text itself, or a numeral of the number. -/
def IsMeant : (kind : SettingKind) → String → kind.Value → Prop
  | text, spelled, value => spelled = value
  | word32, spelled, value => IsNumeral spelled (UInt32.toNat value)
  | word64, spelled, value => IsNumeral spelled (UInt64.toNat value)

theorem ofVariable?_eq_some_iff (kind : SettingKind) (environment : Environment) (name : String)
    (value : kind.Value) :
    kind.ofVariable? environment name = some value ↔
      ∃ spelled, environment.lookup name = some (bytesOfText spelled) ∧ kind.IsMeant spelled value := by
  cases kind with
  | text =>
    refine (environment.text?_eq_some_iff name value).trans ⟨fun given => ⟨value, given, rfl⟩, ?_⟩
    rintro ⟨spelled, given, rfl⟩
    exact given
  | word32 => exact environment.word32?_eq_some_iff name value
  | word64 => exact environment.word64?_eq_some_iff name value

theorem ofToml?_eq_some_iff (kind : SettingKind) (item : Toml) (value : kind.Value) :
    kind.ofToml? item = some value ↔ kind.IsGiven item value := by
  cases kind with
  | text => exact item.text?_eq_some_iff value
  | word32 => exact item.word32?_eq_some_iff value
  | word64 => exact item.word64?_eq_some_iff value

end SettingKind

inductive Setting where
  | requestTimeout
  | storePath
  | maxConnections
  | connectionTimeout
  | databaseGrace
  | sweepInterval
  | logLevel
  | logFormat

namespace Setting

def kind : Setting → SettingKind
  | storePath | logLevel | logFormat => .text
  | maxConnections => .word32
  | requestTimeout | connectionTimeout | databaseGrace | sweepInterval => .word64

def value (config : Config) : (setting : Setting) → setting.kind.Value
  | requestTimeout => config.server.requestTimeoutSeconds
  | storePath => config.store.path
  | maxConnections => config.store.maxConnections
  | connectionTimeout => config.store.connectionTimeoutSeconds
  | databaseGrace => config.retention.databaseGraceSeconds
  | sweepInterval => config.retention.sweepIntervalSeconds
  | logLevel => config.logging.level
  | logFormat => config.logging.format

def fallback : (setting : Setting) → setting.kind.Value
  | requestTimeout => (30 : UInt64)
  | storePath => "sqlite://sysdb.db"
  | maxConnections => (8 : UInt32)
  | connectionTimeout => (5 : UInt64)
  | databaseGrace => (86400 : UInt64)
  | sweepInterval => (300 : UInt64)
  | logLevel => "info"
  | logFormat => "pretty"

def variableName? : Setting → Option String
  | requestTimeout => some "SYSDB_REQUEST_TIMEOUT_SECONDS"
  | storePath => some "SYSDB_DB_PATH"
  | maxConnections => some "SYSDB_DB_MAX_CONNECTIONS"
  | connectionTimeout => none
  | databaseGrace => some "SYSDB_DATABASE_GRACE_SECONDS"
  | sweepInterval => some "SYSDB_SWEEP_INTERVAL_SECONDS"
  | logLevel => some "SYSDB_LOG_LEVEL"
  | logFormat => some "SYSDB_LOG_FORMAT"

def sectionName : Setting → String
  | requestTimeout => "server"
  | storePath | maxConnections | connectionTimeout => "database"
  | databaseGrace | sweepInterval => "retention"
  | logLevel | logFormat => "logging"

def name : Setting → String
  | requestTimeout => "request_timeout_seconds"
  | storePath => "path"
  | maxConnections => "max_connections"
  | connectionTimeout => "connection_timeout_seconds"
  | databaseGrace => "database_grace_seconds"
  | sweepInterval => "sweep_interval_seconds"
  | logLevel => "level"
  | logFormat => "format"

def namesInSection : Setting → List String
  | requestTimeout => ["request_timeout_seconds"]
  | storePath | maxConnections | connectionTimeout => ["path", "max_connections", "connection_timeout_seconds"]
  | databaseGrace | sweepInterval => ["database_grace_seconds", "sweep_interval_seconds"]
  | logLevel | logFormat => ["level", "format"]

end Setting

def Toml.under? (names : List String) (name : String) (table : Toml) : Option Toml :=
  (table.settings? names).bind (·.lookup name)

namespace Setting

def ofToml? (setting : Setting) (file : Toml) : Option setting.kind.Value :=
  ((file.under? ["server", "database", "retention", "logging"] setting.sectionName).bind
    (·.under? setting.namesInSection setting.name)).bind setting.kind.ofToml?

end Setting

theorem settingOr_eq_some {α : Type} {settings : List (String × Toml)} {name : String} {read : Toml → Option α}
    {fallback value : α} (given : settingOr settings name read fallback = some value) :
    value = ((settings.lookup name).bind read).getD fallback := by
  unfold settingOr at given
  cases found : settings.lookup name with
  | none =>
    rw [found] at given
    exact (Option.some.inj given).symm
  | some item =>
    rw [found] at given
    simp [given]

theorem inner_of_settingOr {Part α : Type} {sections : List (String × Toml)} {sectionName name : String}
    {names : List String} {readPart : Toml → Option Part} {fallbackPart part : Part} {read : Toml → Option α}
    {fallback : α} (inner : Part → α)
    (of_section : ∀ table part, readPart table = some part →
      inner part = ((table.under? names name).bind read).getD fallback)
    (of_fallback : inner fallbackPart = fallback)
    (given : settingOr sections sectionName readPart fallbackPart = some part) :
    inner part = (((sections.lookup sectionName).bind (·.under? names name)).bind read).getD fallback := by
  unfold settingOr at given
  cases found : sections.lookup sectionName with
  | none =>
    rw [found] at given
    obtain rfl := Option.some.inj given
    exact of_fallback
  | some table =>
    rw [found] at given
    exact of_section table part given

theorem eq_of_settings? {α : Type} {names : List String} {table : Toml} {settings : List (String × Toml)}
    {name : String} {read : Toml → Option α} {fallback value : α} (listed : table.settings? names = some settings)
    (given : settingOr settings name read fallback = some value) :
    value = ((table.under? names name).bind read).getD fallback := by
  rw [settingOr_eq_some given, Toml.under?, listed]
  rfl

theorem ServerSettings.eq_of_ofToml? {table : Toml} {part : ServerSettings}
    (read : ServerSettings.ofToml? table = some part) :
    part.requestTimeoutSeconds =
      ((table.under? ["request_timeout_seconds"] "request_timeout_seconds").bind Toml.word64?).getD 30 := by
  obtain ⟨settings, listed, read⟩ := Option.bind_eq_some_iff.mp read
  obtain ⟨timeout, timeout_read, made⟩ := Option.bind_eq_some_iff.mp read
  obtain rfl := Option.some.inj made
  exact eq_of_settings? listed timeout_read

theorem StoreSettings.eq_of_ofToml? {table : Toml} {part : StoreSettings}
    (read : StoreSettings.ofToml? table = some part) :
    part.path = ((table.under? ["path", "max_connections", "connection_timeout_seconds"] "path").bind
        Toml.text?).getD "sqlite://sysdb.db" ∧
      part.maxConnections = ((table.under? ["path", "max_connections", "connection_timeout_seconds"]
        "max_connections").bind Toml.word32?).getD 8 ∧
      part.connectionTimeoutSeconds = ((table.under? ["path", "max_connections", "connection_timeout_seconds"]
        "connection_timeout_seconds").bind Toml.word64?).getD 5 := by
  obtain ⟨settings, listed, read⟩ := Option.bind_eq_some_iff.mp read
  obtain ⟨path, path_read, read⟩ := Option.bind_eq_some_iff.mp read
  obtain ⟨connections, connections_read, read⟩ := Option.bind_eq_some_iff.mp read
  obtain ⟨timeout, timeout_read, made⟩ := Option.bind_eq_some_iff.mp read
  obtain rfl := Option.some.inj made
  exact ⟨eq_of_settings? listed path_read, eq_of_settings? listed connections_read,
    eq_of_settings? listed timeout_read⟩

theorem RetentionSettings.eq_of_ofToml? {table : Toml} {part : RetentionSettings}
    (read : RetentionSettings.ofToml? table = some part) :
    part.databaseGraceSeconds = ((table.under? ["database_grace_seconds", "sweep_interval_seconds"]
        "database_grace_seconds").bind Toml.word64?).getD 86400 ∧
      part.sweepIntervalSeconds = ((table.under? ["database_grace_seconds", "sweep_interval_seconds"]
        "sweep_interval_seconds").bind Toml.word64?).getD 300 := by
  obtain ⟨settings, listed, read⟩ := Option.bind_eq_some_iff.mp read
  obtain ⟨grace, grace_read, read⟩ := Option.bind_eq_some_iff.mp read
  obtain ⟨interval, interval_read, made⟩ := Option.bind_eq_some_iff.mp read
  obtain rfl := Option.some.inj made
  exact ⟨eq_of_settings? listed grace_read, eq_of_settings? listed interval_read⟩

theorem LoggingSettings.eq_of_ofToml? {table : Toml} {part : LoggingSettings}
    (read : LoggingSettings.ofToml? table = some part) :
    part.level = ((table.under? ["level", "format"] "level").bind Toml.text?).getD "info" ∧
      part.format = ((table.under? ["level", "format"] "format").bind Toml.text?).getD "pretty" := by
  obtain ⟨settings, listed, read⟩ := Option.bind_eq_some_iff.mp read
  obtain ⟨level, level_read, read⟩ := Option.bind_eq_some_iff.mp read
  obtain ⟨format, format_read, made⟩ := Option.bind_eq_some_iff.mp read
  obtain rfl := Option.some.inj made
  exact ⟨eq_of_settings? listed level_read, eq_of_settings? listed format_read⟩

namespace Setting

theorem value_of_ofToml? {file : Toml} {config : Config} (read : Config.ofToml? file = some config)
    (setting : Setting) : setting.value config = (setting.ofToml? file).getD setting.fallback := by
  obtain ⟨sections, listed, read⟩ := Option.bind_eq_some_iff.mp read
  obtain ⟨server, server_read, read⟩ := Option.bind_eq_some_iff.mp read
  obtain ⟨store, store_read, read⟩ := Option.bind_eq_some_iff.mp read
  obtain ⟨retention, retention_read, read⟩ := Option.bind_eq_some_iff.mp read
  obtain ⟨logging, logging_read, made⟩ := Option.bind_eq_some_iff.mp read
  obtain rfl := Option.some.inj made
  have under_section (sectionName : String) :
      file.under? ["server", "database", "retention", "logging"] sectionName = sections.lookup sectionName := by
    rw [Toml.under?, listed]
    rfl
  unfold ofToml?
  rw [under_section]
  cases setting with
  | requestTimeout =>
    exact inner_of_settingOr ServerSettings.requestTimeoutSeconds
      (fun _ _ part_read => ServerSettings.eq_of_ofToml? part_read) rfl server_read
  | storePath =>
    exact inner_of_settingOr StoreSettings.path (fun _ _ part_read => (StoreSettings.eq_of_ofToml? part_read).1) rfl
      store_read
  | maxConnections =>
    exact inner_of_settingOr StoreSettings.maxConnections
      (fun _ _ part_read => (StoreSettings.eq_of_ofToml? part_read).2.1) rfl store_read
  | connectionTimeout =>
    exact inner_of_settingOr StoreSettings.connectionTimeoutSeconds
      (fun _ _ part_read => (StoreSettings.eq_of_ofToml? part_read).2.2) rfl store_read
  | databaseGrace =>
    exact inner_of_settingOr RetentionSettings.databaseGraceSeconds
      (fun _ _ part_read => (RetentionSettings.eq_of_ofToml? part_read).1) rfl retention_read
  | sweepInterval =>
    exact inner_of_settingOr RetentionSettings.sweepIntervalSeconds
      (fun _ _ part_read => (RetentionSettings.eq_of_ofToml? part_read).2) rfl retention_read
  | logLevel =>
    exact inner_of_settingOr LoggingSettings.level
      (fun _ _ part_read => (LoggingSettings.eq_of_ofToml? part_read).1) rfl logging_read
  | logFormat =>
    exact inner_of_settingOr LoggingSettings.format
      (fun _ _ part_read => (LoggingSettings.eq_of_ofToml? part_read).2) rfl logging_read

def ofFile? (setting : Setting) (file : Option (List UInt8)) : Option setting.kind.Value :=
  ((file.bind textOfBytes).bind Toml.parse?).bind setting.ofToml?

theorem value_of_ofFile {file : Option (List UInt8)} {config : Config} (read : Config.ofFile file = .ok config)
    (setting : Setting) : setting.value config = (setting.ofFile? file).getD setting.fallback := by
  unfold Config.ofFile at read
  unfold ofFile?
  cases of_text : file.bind textOfBytes with
  | none =>
    rw [of_text] at read
    cases read
  | some text =>
    simp only [of_text] at read
    cases parsed : Toml.parse? text with
    | none =>
      rw [parsed] at read
      cases read
    | some table =>
      rw [parsed, Option.bind_some] at read
      cases made : Config.ofToml? table with
      | none =>
        rw [made] at read
        cases read
      | some loaded =>
        rw [made] at read
        cases read
        simpa [parsed] using setting.value_of_ofToml? made

def IsGivenIn (setting : Setting) (file : Option (List UInt8)) (value : setting.kind.Value) : Prop :=
  ∃ text table part item, file = some (bytesOfText text) ∧ Toml.parse? text = some table ∧
    table.under? ["server", "database", "retention", "logging"] setting.sectionName = some part ∧
    part.under? setting.namesInSection setting.name = some item ∧ setting.kind.IsGiven item value

theorem ofFile?_eq_some_iff (setting : Setting) (file : Option (List UInt8)) (value : setting.kind.Value) :
    setting.ofFile? file = some value ↔ setting.IsGivenIn file value := by
  simp only [ofFile?, ofToml?, Option.bind_eq_some_iff, textOfBytes_eq_some_iff, SettingKind.ofToml?_eq_some_iff]
  constructor
  · rintro ⟨table, ⟨text, ⟨_, rfl, rfl⟩, parsed⟩, item, ⟨part, inFile, inPart⟩, given⟩
    exact ⟨text, table, part, item, rfl, parsed, inFile, inPart, given⟩
  · rintro ⟨text, table, part, item, rfl, parsed, inFile, inPart, given⟩
    exact ⟨table, ⟨text, ⟨_, rfl, rfl⟩, parsed⟩, item, ⟨part, inFile, inPart⟩, given⟩

theorem ofFile?_eq_none_iff (setting : Setting) (file : Option (List UInt8)) :
    setting.ofFile? file = none ↔ ∀ value, ¬ setting.IsGivenIn file value := by
  simp only [Option.eq_none_iff_forall_ne_some, ne_eq, ofFile?_eq_some_iff]

theorem value_default (setting : Setting) : setting.value {} = setting.fallback := by
  cases setting <;> rfl

def IsSetIn (setting : Setting) (environment : Environment) (value : setting.kind.Value) : Prop :=
  ∃ name spelled, setting.variableName? = some name ∧ environment.lookup name = some (bytesOfText spelled) ∧
    setting.kind.IsMeant spelled value

def ofEnvironment? (setting : Setting) (environment : Environment) : Option setting.kind.Value :=
  setting.variableName?.bind (setting.kind.ofVariable? environment)

theorem variableName?_injective {first second : Setting} (same : first.variableName? = second.variableName?) :
    first = second := by
  cases first <;> cases second <;> first | rfl | simp [variableName?] at same

theorem ofEnvironment?_eq_some_iff (setting : Setting) (environment : Environment) (value : setting.kind.Value) :
    setting.ofEnvironment? environment = some value ↔ setting.IsSetIn environment value := by
  simp only [ofEnvironment?, Option.bind_eq_some_iff, SettingKind.ofVariable?_eq_some_iff, IsSetIn,
    exists_and_left]

theorem ofEnvironment?_eq_none_iff (setting : Setting) (environment : Environment) :
    setting.ofEnvironment? environment = none ↔ ∀ value, ¬ setting.IsSetIn environment value := by
  simp only [Option.eq_none_iff_forall_ne_some, ne_eq, ofEnvironment?_eq_some_iff]

theorem value_override (environment : Environment) (config : Config) (setting : Setting) :
    setting.value (config.override environment) =
      (setting.ofEnvironment? environment).getD (setting.value config) := by
  cases setting <;> rfl

end Setting

namespace Config

theorem eq_of_settings {first second : Config}
    (same : ∀ setting : Setting, setting.value first = setting.value second) : first = second := by
  obtain ⟨⟨timeout⟩, ⟨path, connections, wait⟩, ⟨grace, interval⟩, ⟨level, format⟩⟩ := first
  obtain rfl := same .requestTimeout
  obtain rfl := same .storePath
  obtain rfl := same .maxConnections
  obtain rfl := same .connectionTimeout
  obtain rfl := same .databaseGrace
  obtain rfl := same .sweepInterval
  obtain rfl := same .logLevel
  obtain rfl := same .logFormat
  rfl

theorem override_congr {first second : Environment}
    (same : ∀ setting : Setting, setting.ofEnvironment? first = setting.ofEnvironment? second) (config : Config) :
    config.override first = config.override second := by
  refine eq_of_settings fun setting => ?_
  rw [setting.value_override, setting.value_override, same]

theorem override_override (environment : Environment) (config : Config) :
    (config.override environment).override environment = config.override environment := by
  refine eq_of_settings fun setting => ?_
  rw [setting.value_override, setting.value_override]
  cases setting.ofEnvironment? environment <;> rfl

theorem load_eq_error_iff (file : Option (List UInt8)) (environment : Environment) (failure : ConfigFileError) :
    load file environment = .error failure ↔
      ∃ bytes, file = some bytes ∧ ofFile (some bytes) = .error failure := by
  cases file with
  | none => simp [load]
  | some bytes =>
    cases read : ofFile (some bytes) <;> simp [load, read, Except.map]

theorem value_of_load {file : Option (List UInt8)} {environment : Environment} {config : Config}
    (loaded : load file environment = .ok config) (setting : Setting) :
    setting.value config =
      (setting.ofEnvironment? environment).getD ((setting.ofFile? file).getD setting.fallback) := by
  cases file with
  | none =>
    cases loaded
    rw [setting.value_override, setting.value_default]
    rfl
  | some bytes =>
    cases read : ofFile (some bytes) with
    | error failure => simp [load, read, Except.map] at loaded
    | ok plain =>
      simp only [load, read, Except.map, Except.ok.injEq] at loaded
      subst loaded
      rw [setting.value_override, setting.value_of_ofFile read]

theorem load_congr (file : Option (List UInt8)) {first second : Environment}
    (same : ∀ setting : Setting, setting.ofEnvironment? first = setting.ofEnvironment? second) :
    load file first = load file second := by
  cases file with
  | none => exact congrArg Except.ok (override_congr same {})
  | some bytes => simp only [load, funext (override_congr same)]

end Config

namespace Environment

/-- At most the variable of this name differs. -/
def AgreesBut (name : String) (first second : Environment) : Prop :=
  ∀ other, other ≠ name → first.lookup other = second.lookup other

theorem AgreesBut.ofEnvironment? {name : String} {first second : Environment} (agree : first.AgreesBut name second)
    (setting : Setting) (foreign : setting.variableName? ≠ some name) :
    setting.ofEnvironment? first = setting.ofEnvironment? second := by
  unfold Setting.ofEnvironment?
  cases of_variable : setting.variableName? with
  | none => rfl
  | some own =>
    have same_given := agree own fun same => foreign (of_variable.trans (congrArg some same))
    refine Option.ext fun value => ?_
    simp only [Option.bind_some, SettingKind.ofVariable?_eq_some_iff, same_given]

end Environment

/-- A file that is there has to be right, whatever the environment holds. Of each setting the variable goes
before the file and the file before the default; a variable that means nothing has the effect of one
that is not set, and a variable has no effect on the settings of others. -/
theorem load_precedence (file : Option (List UInt8)) (environment : Environment) :
    (∀ failure, Config.load file environment = .error failure ↔
        ∃ bytes, file = some bytes ∧ Config.ofFile (some bytes) = .error failure) ∧
      (∀ config, Config.load file environment = .ok config → ∀ setting : Setting,
        (∀ value, setting.IsSetIn environment value → setting.value config = value) ∧
          ((∀ value, ¬ setting.IsSetIn environment value) →
            (∀ value, setting.IsGivenIn file value → setting.value config = value) ∧
              ((∀ value, ¬ setting.IsGivenIn file value) → setting.value config = setting.fallback))) ∧
      (∀ other name, environment.AgreesBut name other →
        (∀ config, Config.load file environment = .ok config →
          ∃ changed, Config.load file other = .ok changed ∧
            ∀ setting : Setting, setting.variableName? ≠ some name →
              setting.value changed = setting.value config) ∧
        (∀ setting : Setting, setting.variableName? = some name →
          (∀ value, ¬ setting.IsSetIn environment value) → other.lookup name = none →
            Config.load file environment = Config.load file other)) ∧
      ∀ config : Config,
        (config.override environment).override environment = config.override environment := by
  refine ⟨Config.load_eq_error_iff file environment, ?_, ?_, Config.override_override environment⟩
  · intro config loaded setting
    rw [Config.value_of_load loaded]
    refine ⟨fun value set => ?_, fun unset => ?_⟩
    · rw [(setting.ofEnvironment?_eq_some_iff environment value).mpr set]
      rfl
    · rw [(setting.ofEnvironment?_eq_none_iff environment).mpr unset]
      refine ⟨fun value given => ?_, fun absent => ?_⟩
      · rw [(setting.ofFile?_eq_some_iff file value).mpr given]
        rfl
      · rw [(setting.ofFile?_eq_none_iff file).mpr absent]
        rfl
  · intro other name agree
    refine ⟨fun config loaded => ?_, fun setting of_variable unset missing => ?_⟩
    · cases changed : Config.load file other with
      | error failure =>
        have failed := (Config.load_eq_error_iff file environment failure).mpr
          ((Config.load_eq_error_iff file other failure).mp changed)
        rw [loaded] at failed
        cases failed
      | ok config' =>
        refine ⟨config', rfl, fun setting foreign => ?_⟩
        rw [Config.value_of_load changed, Config.value_of_load loaded, agree.ofEnvironment? setting foreign]
    · refine Config.load_congr file fun another => ?_
      by_cases same : another.variableName? = some name
      · obtain rfl := Setting.variableName?_injective (of_variable.trans same.symm)
        rw [(setting.ofEnvironment?_eq_none_iff environment).mpr unset,
          (setting.ofEnvironment?_eq_none_iff other).mpr]
        rintro value ⟨own, spelled, of_own, given, -⟩
        obtain rfl := Option.some.inj (of_variable.symm.trans of_own)
        rw [missing] at given
        cases given
      · exact agree.ofEnvironment? another same

def mixedFile : List UInt8 := bytesOfText "[retention]\nsweep_interval_seconds = 5\n[logging]\nlevel = \"warn\"\n"

def mixedEnvironment : Environment :=
  [("SYSDB_SWEEP_INTERVAL_SECONDS", bytesOfText "soon"), ("SYSDB_DB_MAX_CONNECTIONS", bytesOfText "+9")]

theorem load_mixedEnvironment :
    ∃ config, Config.load (some mixedFile) mixedEnvironment = .ok config ∧
      config.store.maxConnections = 9 ∧ config.retention.sweepIntervalSeconds = 5 ∧
      config.logging.level = "warn" ∧ config.logging.format = "pretty" ∧
      Config.load (some mixedFile) mixedEnvironment = Config.load (some mixedFile) mixedEnvironment.tail := by
  obtain ⟨config, loaded⟩ : ∃ config, Config.load (some mixedFile) mixedEnvironment = .ok config := by
    cases read : Config.load (some mixedFile) mixedEnvironment with
    | ok config => exact ⟨config, rfl⟩
    | error failure =>
      have loads : (Config.load (some mixedFile) mixedEnvironment).toOption.isSome = true := by
        decide +kernel
      rw [read] at loads
      cases loads
  have connections_set : Setting.IsSetIn .maxConnections mixedEnvironment (9 : UInt32) :=
    (Setting.ofEnvironment?_eq_some_iff ..).mp (by decide +kernel)
  have unset (setting : Setting) (missing : setting.ofEnvironment? mixedEnvironment = none) :
      ∀ value, ¬ setting.IsSetIn mixedEnvironment value := (setting.ofEnvironment?_eq_none_iff _).mp missing
  have interval_unset := unset .sweepInterval (by decide +kernel)
  have interval_given : Setting.IsGivenIn .sweepInterval (some mixedFile) (5 : UInt64) :=
    (Setting.ofFile?_eq_some_iff ..).mp (by decide +kernel)
  have level_given : Setting.IsGivenIn .logLevel (some mixedFile) "warn" :=
    (Setting.ofFile?_eq_some_iff ..).mp (by decide +kernel)
  have format_absent : ∀ value, ¬ Setting.IsGivenIn .logFormat (some mixedFile) value :=
    (Setting.ofFile?_eq_none_iff ..).mp (by decide +kernel)
  have agree : mixedEnvironment.AgreesBut "SYSDB_SWEEP_INTERVAL_SECONDS" mixedEnvironment.tail := by
    intro other foreign
    simp [mixedEnvironment, List.lookup_cons, beq_false_of_ne foreign]
  obtain ⟨-, values, others, -⟩ := load_precedence (some mixedFile) mixedEnvironment
  have ofFile (setting : Setting) := (values config loaded setting).2
  refine ⟨config, loaded, (values config loaded .maxConnections).1 _ connections_set, ?_, ?_, ?_, ?_⟩
  · exact (ofFile .sweepInterval interval_unset).1 _ interval_given
  · exact (ofFile .logLevel (unset .logLevel (by decide +kernel))).1 _ level_given
  · exact (ofFile .logFormat (unset .logFormat (by decide +kernel))).2 format_absent
  · exact (others _ _ agree).2 .sweepInterval rfl interval_unset rfl

end MetadataRegistry
