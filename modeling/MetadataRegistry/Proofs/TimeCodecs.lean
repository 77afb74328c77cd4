import MetadataRegistry.Proofs.Readability
import MetadataRegistry.Proofs.TimeOrder

/-!
The two forms of a stored time. Its text is read back, cut down to milliseconds, exactly if its year has four digits,
and the bytes of such texts are ordered as the times are. Its milliseconds since 1970 fit their column whatever the
year is, but count a leap second as the second after it: a time in a leap second is read back one second later, and
it overtakes the times of that second with a lesser fraction.
-/

namespace MetadataRegistry

namespace Instant

def IsOn (instant : Instant) (date : Date) : Prop := date.IsValid ∧ date.dayNumber = instant.seconds / 86400

theorem isOn_iff (instant : Instant) (date : Date) : instant.IsOn date ↔ date = instant.date := by
  have own : instant.IsOn instant.date := ofDayNumber_spec (instant.seconds / 86400)
  constructor
  · rintro ⟨valid, number⟩
    exact Date.eq_of_dayNumber_eq valid own.1 (number.trans own.2.symm)
  · rintro rfl
    exact own

theorem hasStoredYear_iff_isOn (instant : Instant) :
    instant.HasStoredYear ↔ ∃ date : Date, instant.IsOn date ∧ 0 ≤ date.year ∧ date.year ≤ 9999 := by
  simp only [isOn_iff, exists_eq_left]
  exact Iff.rfl

end Instant

theorem reads_readTime_storedText_iff (column : String) (instant : Instant) :
    Reads (readTime column instant.storedText) ↔ instant.HasStoredYear := by
  constructor
  · rintro ⟨read, found⟩
    rw [readTime_iff] at found
    refine Decidable.byContradiction fun outside => ?_
    rw [parseStored?_storedText_outside instant outside] at found
    cases found
  · exact fun inYears => ⟨instant.truncate, readTime_storedText column inYears⟩

theorem bytesOfText_storedText_le_iff {left right : Instant} (inYears : left.HasStoredYear)
    (rightInYears : right.HasStoredYear) :
    bytesOfText left.storedText ≤ bytesOfText right.storedText ↔ left.truncate.le right.truncate = true := by
  rw [← isLE_compare_bytes_iff, compare_bytesOfText, compare_storedText inYears rightInYears]
  rfl

/-- A time is read back from its text exactly if the date that it lies on has a year from 0 to 9999, be it in a leap
second or not, and then it is the time cut down to milliseconds. Of two such times the text of one goes before that of
the other or is equal to it, byte by byte, exactly if the times cut down to milliseconds do. -/
theorem storedText_is_codec (column : String) :
    (∀ instant : Instant, instant.HasStoredYear ↔
      ∃ date : Date, instant.IsOn date ∧ 0 ≤ date.year ∧ date.year ≤ 9999) ∧
    (∀ instant : Instant, Reads (readTime column instant.storedText) ↔ instant.HasStoredYear) ∧
    (∀ instant : Instant, instant.HasStoredYear → readTime column instant.storedText = .ok instant.truncate) ∧
    ∀ left right : Instant, left.HasStoredYear → right.HasStoredYear →
      (bytesOfText left.storedText ≤ bytesOfText right.storedText ↔ left.truncate.le right.truncate = true) :=
  ⟨Instant.hasStoredYear_iff_isOn, reads_readTime_storedText_iff column, fun _ => readTime_storedText column,
    fun _ _ => bytesOfText_storedText_le_iff⟩

def leapMoment : Instant := ⟨1435708799, 1500000001, by decide, by decide⟩

def nextMoment : Instant := ⟨1435708800, 200000000, by decide, by decide⟩

theorem storedText_is_codec_leapMoment :
    (leapMoment.HasStoredYear ∧ nextMoment.HasStoredYear) ∧
      readTime "created_at" leapMoment.storedText = .ok ⟨1435708799, 1500000000, by decide, by decide⟩ ∧
      bytesOfText leapMoment.storedText ≤ bytesOfText nextMoment.storedText := by
  have leapYear : leapMoment.HasStoredYear := by decide +kernel
  have nextYear : nextMoment.HasStoredYear := by decide +kernel
  obtain ⟨_, _, reads, ordered⟩ := storedText_is_codec "created_at"
  exact ⟨⟨leapYear, nextYear⟩, reads leapMoment leapYear,
    (ordered leapMoment nextMoment leapYear nextYear).mpr (by decide)⟩

namespace Instant

def countedSecond (instant : Instant) : Int := if instant.isLeapSecond then instant.seconds + 1 else instant.seconds

def countedMillis (instant : Instant) : Nat := instant.subsecond / nanosPerMilli

theorem epochMillis_eq (instant : Instant) :
    instant.epochMillis = instant.countedSecond * 1000 + instant.countedMillis := by
  rw [epochMillis, instant.millis_eq, countedSecond, countedMillis]
  split <;> omega

end Instant

theorem readMillis_epochMillis_iff (column : String) (instant read : Instant) :
    readMillis column (.ofInt instant.epochMillis) = .ok read ↔
      read.seconds = instant.countedSecond ∧ read.nanos = instant.countedMillis * nanosPerMilli := by
  have short : instant.countedMillis < 1000 := instant.millis_lt
  rw [readMillis_iff, toInt_epochMillis, Instant.ofEpochMillis?, of?_eq_some_iff, instant.epochMillis_eq,
    show (instant.countedSecond * 1000 + instant.countedMillis) / 1000 = instant.countedSecond by omega,
    show ((instant.countedSecond * 1000 + instant.countedMillis) % 1000).toNat = instant.countedMillis by omega]

theorem readMillis_epochMillis_eq_truncate_iff (column : String) (instant : Instant) :
    readMillis column (.ofInt instant.epochMillis) = .ok instant.truncate ↔ instant.isLeapSecond = false := by
  refine ⟨fun read => ?_, readMillis_epochMillis column⟩
  have kept : instant.seconds = instant.countedSecond := ((readMillis_epochMillis_iff column _ _).mp read).1
  rw [Instant.countedSecond] at kept
  split at kept
  · omega
  · rename_i plain
    exact Bool.eq_false_iff.mpr plain

theorem reads_readMillis_epochMillis_iff (column : String) (instant : Instant) :
    Reads (readMillis column (.ofInt instant.epochMillis)) ↔ instant.HasStoredMillis := by
  rw [← ofEpochMillis?_epochMillis_isSome_iff, Option.isSome_iff_exists]
  simp only [Reads, readMillis_iff, toInt_epochMillis]

theorem epochMillis_lt_iff {earlier later : Instant} (ordered : earlier.le later = true) :
    Int64.ofInt later.epochMillis < Int64.ofInt earlier.epochMillis ↔
      earlier.isLeapSecond = true ∧ later.seconds = earlier.seconds + 1 ∧
        later.countedMillis < earlier.countedMillis := by
  have fraction := earlier.fraction
  have laterFraction := later.fraction
  have leap : earlier.isLeapSecond = true ↔ nanosPerSecond ≤ earlier.nanos := decide_eq_true_iff
  rw [Instant.le_iff] at ordered
  rw [Int64.lt_iff_toInt_lt, toInt_epochMillis, toInt_epochMillis, leap]
  simp only [Instant.epochMillis, Instant.countedMillis, Instant.subsecond, nanosPerSecond, nanosPerMilli]
    at fraction laterFraction ⊢
  omega

/-- The milliseconds of a time fit their column. They are read back as the time cut down to milliseconds exactly if it
is not in a leap second; one in a leap second is read back as the time one second later, if there is one. Of two times
in their order the milliseconds go back exactly if the first is in a leap second, the second in the second right after
it, and the second has fewer milliseconds of its second. -/
theorem epochMillis_misplaces_leapSeconds (column : String) :
    (∀ instant : Instant, (Int64.ofInt instant.epochMillis).toInt = instant.epochMillis) ∧
    (∀ instant : Instant, Reads (readMillis column (.ofInt instant.epochMillis)) ↔ instant.HasStoredMillis) ∧
    (∀ instant : Instant,
      readMillis column (.ofInt instant.epochMillis) = .ok instant.truncate ↔ instant.isLeapSecond = false) ∧
    (∀ instant read : Instant, instant.isLeapSecond = true →
      (readMillis column (.ofInt instant.epochMillis) = .ok read ↔
        read.seconds = instant.seconds + 1 ∧ read.nanos = instant.countedMillis * nanosPerMilli)) ∧
    ∀ earlier later : Instant, earlier.le later = true →
      (Int64.ofInt later.epochMillis < Int64.ofInt earlier.epochMillis ↔
        earlier.isLeapSecond = true ∧ later.seconds = earlier.seconds + 1 ∧
          later.countedMillis < earlier.countedMillis) := by
  refine ⟨toInt_epochMillis, reads_readMillis_epochMillis_iff column,
    readMillis_epochMillis_eq_truncate_iff column, fun instant read leap => ?_, fun _ _ => epochMillis_lt_iff⟩
  rw [readMillis_epochMillis_iff, Instant.countedSecond, if_pos leap]

theorem epochMillis_misplaces_leapSeconds_nextMoment :
    (leapMoment.isLeapSecond = true ∧ leapMoment.le nextMoment = true) ∧
      readMillis "deleted_at" (.ofInt leapMoment.epochMillis) = .ok ⟨1435708800, 500000000, by decide, by decide⟩ ∧
      Int64.ofInt nextMoment.epochMillis < Int64.ofInt leapMoment.epochMillis := by
  have leap : leapMoment.isLeapSecond = true := by decide
  have ordered : leapMoment.le nextMoment = true := by decide
  obtain ⟨_, _, _, reads, goesBack⟩ := epochMillis_misplaces_leapSeconds "deleted_at"
  exact ⟨⟨leap, ordered⟩, (reads leapMoment _ leap).mpr ⟨by decide, by decide⟩,
    (goesBack leapMoment nextMoment ordered).mpr ⟨leap, by decide, by decide⟩⟩

def lastLeapMoment : Instant := ⟨lastSecond, 1500000000, by decide, by decide⟩

/-- The leap second overtakes the next second and is read back as a part of it, and the last one is not read back. -/
theorem leapMoment_overtakes_nextMoment :
    leapMoment.le nextMoment = true ∧
      ¬Int64.ofInt leapMoment.epochMillis ≤ Int64.ofInt nextMoment.epochMillis ∧
      ¬readMillis "deleted_at" (.ofInt leapMoment.epochMillis) = .ok leapMoment.truncate ∧
      ¬Reads (readMillis "deleted_at" (.ofInt lastLeapMoment.epochMillis)) := by
  refine ⟨by decide, by decide, ?_, ?_⟩
  · rw [readMillis_epochMillis_eq_truncate_iff]
    decide
  · rw [reads_readMillis_epochMillis_iff]
    decide

end MetadataRegistry
