import MetadataRegistry.Proofs.DeletionSweeps
import MetadataRegistry.Proofs.StoredTime
import MetadataRegistry.Sweeper

/-!
Periods of grace in valid settings. Validation looks at no period of grace, so a sweeper may have settings that are
valid and find no cutoff by them: the milliseconds of the period may not fit a signed word, or the cutoff may lie
before the first instant. It breaks off then, with its store as it was.
-/

namespace MetadataRegistry

def firstStoredSecond : Int := -62167219200

def lastStoredSecond : Int := 253402300799

theorem hasStoredYear_iff (instant : Instant) :
    instant.HasStoredYear ↔ firstStoredSecond ≤ instant.seconds ∧ instant.seconds ≤ lastStoredSecond := by
  obtain ⟨start, finish⟩ := yearOfDay_spec (instant.seconds / 86400 + epochDay)
  have lower := daysBeforeYear_bounds (yearOfDay (instant.seconds / 86400 + epochDay))
  have upper := daysBeforeYear_bounds (yearOfDay (instant.seconds / 86400 + epochDay) + 1)
  show 0 ≤ yearOfDay (instant.seconds / 86400 + epochDay) ∧ yearOfDay (instant.seconds / 86400 + epochDay) ≤ 9999 ↔ _
  generalize yearOfDay (instant.seconds / 86400 + epochDay) = year at start finish lower upper
  simp only [daysBeforeYear, epochDay, firstStoredSecond, lastStoredSecond] at start finish lower upper ⊢
  omega

def startOfYearZero : Instant := ⟨firstStoredSecond, 0, by decide, by decide⟩

def endOfStoredYears : Instant := ⟨lastStoredSecond, 1999999999, by decide, by decide⟩

theorem sweepCutoff?_of_long {seconds : Nat} (long : ¬seconds ≤ longestGrace) (now : Instant) :
    sweepCutoff? (.seconds seconds) now = none := by
  have nanos : (Period.seconds seconds).nanos = seconds * (1000000000 : Int) := rfl
  have impossible : ¬(Period.seconds seconds).nanos.natAbs ≤ Period.longest := by
    rw [nanos]
    simp only [Period.longest, longestGrace] at long ⊢
    omega
  exact if_neg impossible

namespace Config

def cutoff? (config : Config) (now : Instant) : Option Instant :=
  config.retention.databaseGrace?.bind fun grace => sweepCutoff? grace now

def withGrace (config : Config) (seconds : UInt64) : Config :=
  { config with retention := { config.retention with databaseGraceSeconds := seconds } }

theorem validate_withGrace (config : Config) (seconds : UInt64) :
    (config.withGrace seconds).validate = config.validate := rfl

theorem databaseGrace?_eq (config : Config) :
    config.retention.databaseGrace? =
      if config.retention.databaseGraceSeconds.toNat ≤ longestGrace then
        some (config.retention.databaseGraceSeconds.toNat : Int)
      else none := by
  unfold RetentionSettings.databaseGrace? configuredGrace gracePeriod?
  by_cases short : config.retention.databaseGraceSeconds.toNat ≤ longestGrace
  · have whole : min (config.retention.databaseGraceSeconds.toNat : Int) greatestInt64 =
        config.retention.databaseGraceSeconds.toNat := by
      simp only [longestGrace, greatestInt64] at short ⊢
      omega
    rw [whole, Int.natAbs_natCast, if_pos short]
  · rw [if_neg short, if_neg]
    simp only [longestGrace, greatestInt64] at short ⊢
    omega

theorem isSome_databaseGrace?_iff (config : Config) :
    config.retention.databaseGrace?.isSome = true ↔
      config.retention.databaseGraceSeconds.toNat ≤ longestGrace := by
  rw [databaseGrace?_eq]
  split
  · rename_i short
    exact iff_of_true rfl short
  · rename_i long
    exact iff_of_false Bool.noConfusion long

theorem cutoff?_eq (config : Config) (now : Instant) :
    config.cutoff? now = sweepCutoff? (.seconds config.retention.databaseGraceSeconds.toNat) now := by
  rw [cutoff?, databaseGrace?_eq]
  split
  · exact Option.bind_some _ _
  · rename_i long
    exact (Option.bind_none _).trans (sweepCutoff?_of_long long now).symm

theorem isSome_cutoff?_iff (config : Config) (now : Instant) :
    (config.cutoff? now).isSome = true ↔
      firstSecond * 1000 ≤ now.epochMillis - 1000 * config.retention.databaseGraceSeconds.toNat := by
  have latest := now.inRange.2
  have fraction := now.fraction
  rw [cutoff?_eq, isSome_sweepCutoff?_seconds_iff (Int.natCast_nonneg _)]
  simp only [Instant.epochMillis, firstSecond, lastSecond, nanosPerSecond, nanosPerMilli, longestGrace] at *
  omega

theorem cutoff?_at_every_stored_instant_iff (config : Config) :
    (∀ now : Instant, now.HasStoredYear → (config.cutoff? now).isSome = true) ↔
      (config.retention.databaseGraceSeconds.toNat : Int) ≤ firstStoredSecond - firstSecond := by
  simp only [isSome_cutoff?_iff, hasStoredYear_iff]
  constructor
  · -- Of the instants in question the start of the year 0 has the least before it.
    intro reckoned
    have earliest := reckoned startOfYearZero (by decide)
    simp only [Instant.epochMillis, startOfYearZero, nanosPerMilli] at earliest
    simp only [firstSecond, firstStoredSecond] at earliest ⊢
    omega
  · intro short now inYears
    simp only [Instant.epochMillis, nanosPerMilli, firstSecond, firstStoredSecond] at short inYears ⊢
    omega

theorem cutoff?_at_some_stored_instant_iff (config : Config) :
    (∃ now : Instant, now.HasStoredYear ∧ (config.cutoff? now).isSome = true) ↔
      (config.retention.databaseGraceSeconds.toNat : Int) ≤ lastStoredSecond + 1 - firstSecond := by
  simp only [isSome_cutoff?_iff, hasStoredYear_iff]
  constructor
  · rintro ⟨now, inYears, reckoned⟩
    have fraction := now.fraction
    simp only [Instant.epochMillis, firstSecond, lastStoredSecond, nanosPerSecond, nanosPerMilli] at *
    omega
  · intro short
    refine ⟨endOfStoredYears, by decide, ?_⟩
    simp only [Instant.epochMillis, endOfStoredYears, nanosPerMilli]
    simp only [firstSecond, lastStoredSecond] at short ⊢
    omega

end Config

namespace Host

variable {config : Config} {host : Host}

theorem brokeOff_sweepStore_iff (store : Store) :
    (host.sweepStore config store).1 = .brokeOff ↔ config.cutoff? host.now = none := by
  unfold sweepStore Config.cutoff? sweep
  cases config.retention.databaseGrace? with
  | none => simp
  | some grace =>
      rw [Option.bind_some]
      dsimp only
      cases sweepCutoff? grace host.now with
      | none => simp
      | some cutoff =>
          dsimp only
          rcases finishDatabaseDeletion ⟨cutoff⟩ ⟨host.now, [], true⟩ store with ⟨outcome, after⟩
          cases outcome <;> simp

theorem sweepStore_of_no_cutoff (missing : config.cutoff? host.now = none) (store : Store) :
    host.sweepStore config store = (.brokeOff, store) := by
  unfold sweepStore
  unfold Config.cutoff? at missing
  cases allowed : config.retention.databaseGrace? with
  | none => rfl
  | some grace =>
      rw [allowed, Option.bind_some] at missing
      dsimp only
      rw [sweep]
      simp only [missing]

structure Opens (host : Host) (config : Config) (location : StoreLocation) (store : Store) : Prop where
  located : StoreLocation.ofUrl? config.store.path = some location
  waits : config.store.connectionTimeoutSeconds.toNat ≤ longestConnectionTimeout
  opened : host.files.open? location = some store

theorem runSweeper_of_opens {location : StoreLocation} {store : Store} (valid : host.config.1.validate = .ok ())
    (opens : host.Opens host.config.1 location store) :
    host.runSweeper = ((host.sweepStore host.config.1 store).1,
      host.files.save location (host.sweepStore host.config.1 store).2) := by
  rw [runSweeper]
  simp only [valid, opens.located, sweepAt, if_neg (Nat.not_lt.mpr opens.waits), opens.opened]

end Host

/-- Valid settings may have any period of grace, and with one that is too long the sweeper finds no cutoff: the period
itself is reckoned with as long as its milliseconds fit a signed word, and its cutoff, which lies the whole period
before now, as long as it does not lie before the first instant. There is a cutoff at every time of the years with
four digits if the period reaches no further back than the start of the year 0 does, and at no such time if it is
longer than from the first instant to the end of those years. Without a cutoff the sweeper breaks off, and leaves the
store that it opened as it was. -/
theorem valid_settings_may_lack_cutoffs (config : Config) (valid : config.validate = .ok ()) :
    (∀ seconds, (config.withGrace seconds).validate = .ok ()) ∧
    (config.retention.databaseGrace?.isSome = true ↔
      config.retention.databaseGraceSeconds.toNat ≤ 9223372036854775) ∧
    (∀ now : Instant, ((config.cutoff? now).isSome = true ↔
        firstSecond * 1000 ≤ now.epochMillis - 1000 * config.retention.databaseGraceSeconds.toNat) ∧
      ∀ cutoff ∈ config.cutoff? now,
        cutoff.epochMillis = now.epochMillis - 1000 * config.retention.databaseGraceSeconds.toNat) ∧
    ((∀ now : Instant, now.HasStoredYear → (config.cutoff? now).isSome = true) ↔
      (config.retention.databaseGraceSeconds.toNat : Int) ≤ firstStoredSecond - firstSecond) ∧
    ((∃ now : Instant, now.HasStoredYear ∧ (config.cutoff? now).isSome = true) ↔
      (config.retention.databaseGraceSeconds.toNat : Int) ≤ lastStoredSecond + 1 - firstSecond) ∧
    (∀ (host : Host) (location : StoreLocation) (store : Store), host.config.1 = config →
      host.Opens config location store →
        (host.runSweeper.1 = .brokeOff ↔ config.cutoff? host.now = none) ∧
        (config.cutoff? host.now = none → host.runSweeper = (.brokeOff, host.files.save location store))) := by
  refine ⟨fun seconds => (config.validate_withGrace seconds).trans valid, config.isSome_databaseGrace?_iff, ?_,
    config.cutoff?_at_every_stored_instant_iff, config.cutoff?_at_some_stored_instant_iff, ?_⟩
  · intro now
    refine ⟨config.isSome_cutoff?_iff now, ?_⟩
    intro cutoff reckoned
    rw [Option.mem_def, config.cutoff?_eq] at reckoned
    exact epochMillis_of_sweepCutoff? (Int.natCast_nonneg _) reckoned
  · rintro host location store rfl opens
    rw [Host.runSweeper_of_opens valid opens]
    refine ⟨Host.brokeOff_sweepStore_iff store, ?_⟩
    intro missing
    rw [Host.sweepStore_of_no_cutoff missing]

theorem valid_settings_may_lack_cutoffs_longest :
    let config := ({} : Config).withGrace 8272434009600
    config.validate = .ok () ∧ ∀ now : Instant, now.HasStoredYear → (config.cutoff? now).isSome = true :=
  ⟨rfl, (valid_settings_may_lack_cutoffs _ rfl).2.2.2.1.mpr (by decide)⟩

/-- The first of these periods is too long itself, though it is cut down to a signed word; the second would reach back
from the first of June 2024 to before the first instant. -/
theorem valid_grace_overflows :
    let unreckoned := ({} : Config).withGrace 9223372036854776
    let remote := ({} : Config).withGrace 10000000000000
    (unreckoned.validate = .ok () ∧ unreckoned.retention.databaseGrace? = none) ∧
      (remote.validate = .ok () ∧ remote.retention.databaseGrace? = some 10000000000000 ∧
        firstOfJune.HasStoredYear ∧ remote.cutoff? firstOfJune = none) := by
  decide +kernel

end MetadataRegistry
