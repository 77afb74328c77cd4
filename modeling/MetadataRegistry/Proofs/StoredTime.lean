import MetadataRegistry.Proofs.WrittenTime
import MetadataRegistry.Store

/-!
Stored times. The text that is kept of an instant is read back, cut down to milliseconds, exactly if its
year has four digits; a later or an earlier one is written with a sign that the reader of the store does
not take. Milliseconds since 1970 are read back but for the last leap second there could be.
-/

namespace MetadataRegistry

def Instant.HasStoredYear (instant : Instant) : Prop := 0 ≤ instant.date.year ∧ instant.date.year ≤ 9999

instance : DecidablePred Instant.HasStoredYear := fun _ => inferInstanceAs (Decidable (_ ∧ _))

theorem Instant.HasStoredYear.yearText {instant : Instant} (inYears : instant.HasStoredYear) :
    yearText instant.date.year = paddedDigits 4 instant.date.year.toNat := if_pos inYears

theorem Instant.HasStoredYear.fourDigits {instant : Instant} (inYears : instant.HasStoredYear) :
    instant.date.year.toNat < tenTo 4 := by
  have last := inYears.2
  have tenThousand : tenTo 4 = 10000 := rfl
  omega

theorem readFraction_milliFraction (nanos : Nat) (fits : nanos < nanosPerSecond) (rest : List Char) :
    readFraction (milliFraction nanos ++ 'Z' :: rest) =
      some (nanos / nanosPerMilli * nanosPerMilli, 'Z' :: rest) := by
  have thousand : tenTo 3 = 1000 := rfl
  refine readFraction_paddedDigits (by decide) (by decide) ?_ rest
  simp only [nanosPerSecond, nanosPerMilli] at fits ⊢
  omega

theorem readStored_fixedWidth (year month day hour minute second nanos : Nat) (fourDigits : year < tenTo 4)
    (shortMonth : month < tenTo 2) (shortDay : day < tenTo 2) (shortHour : hour < tenTo 2)
    (shortMinute : minute < tenTo 2) (shortSecond : second < tenTo 2) (fits : nanos < nanosPerSecond) :
    readStored (paddedDigits 4 year ++ '-' :: (paddedDigits 2 month ++ '-' :: (paddedDigits 2 day ++ 'T' ::
      (paddedDigits 2 hour ++ ':' :: (paddedDigits 2 minute ++ ':' :: (paddedDigits 2 second ++
        (milliFraction nanos ++ ['Z']))))))) =
      Reading.instant? ⟨⟨year, month, day⟩, hour, minute, second, nanos / nanosPerMilli * nanosPerMilli, 0⟩ := by
  unfold readStored
  simp only [readNumber_paddedDigits 4 year (by decide) fourDigits,
    readNumber_paddedDigits 2 month (by decide) shortMonth, readNumber_paddedDigits 2 day (by decide) shortDay,
    readNumber_paddedDigits 2 hour (by decide) shortHour, readNumber_paddedDigits 2 minute (by decide) shortMinute,
    readNumber_paddedDigits 2 second (by decide) shortSecond,
    readFraction_milliFraction nanos fits [], skipChar, skipDateTimeSeparator, isDateTimeSeparator, readZone,
    Option.bind_eq_bind, Option.bind_some, if_true, List.isEmpty_nil, beq_self_eq_true, Bool.true_or, true_or]

theorem isLeapSecond_truncate (instant : Instant) : instant.truncate.isLeapSecond = instant.isLeapSecond := by
  refine decide_eq_decide.mpr ?_
  simp only [Instant.truncate, nanosPerMilli, nanosPerSecond]
  omega

theorem writtenSecond_truncate (instant : Instant) : instant.truncate.writtenSecond = instant.writtenSecond := by
  rw [Instant.writtenSecond, isLeapSecond_truncate]
  rfl

theorem subsecond_truncate (instant : Instant) :
    instant.truncate.subsecond = instant.subsecond / nanosPerMilli * nanosPerMilli := by
  simp only [Instant.truncate, Instant.subsecond, nanosPerMilli, nanosPerSecond]
  omega

theorem parseStored?_storedText (instant : Instant) (inYears : instant.HasStoredYear) :
    Instant.parseStored? instant.storedText = some instant.truncate := by
  have year : (instant.date.year.toNat : Int) = instant.date.year := Int.toNat_of_nonneg inYears.1
  have short := instant.hasTwoDigits
  rw [Instant.parseStored?, Instant.storedText, String.toList_ofList, Instant.render_eq, inYears.yearText,
    readStored_fixedWidth _ _ _ _ _ _ _ inYears.fourDigits short.month short.day short.hour short.minute short.second
      instant.subsecond_lt, year, ← writtenSecond_truncate, ← subsecond_truncate]
  exact instant.truncate.instant?_parts

theorem parseStored?_storedText_outside (instant : Instant) (outside : ¬instant.HasStoredYear) :
    Instant.parseStored? instant.storedText = none := by
  have year : ∃ sign, sign.isDigit = false ∧
      yearText instant.date.year = sign :: paddedDigits 4 instant.date.year.natAbs := by
    unfold yearText
    rw [if_neg (show ¬(0 ≤ instant.date.year ∧ instant.date.year ≤ 9999) from outside)]
    split
    · exact ⟨'-', rfl, rfl⟩
    · exact ⟨'+', rfl, rfl⟩
  obtain ⟨sign, notDigit, text⟩ := year
  rw [Instant.parseStored?, Instant.storedText, String.toList_ofList]
  simp only [Instant.render, dateText, text, List.cons_append, readStored, readNumber, digitRun, List.take_succ_cons,
    List.takeWhile_cons, notDigit]
  rfl

/-- The instant is not in the leap second after the last second, which would count as a second beyond. -/
def Instant.HasStoredMillis (instant : Instant) : Prop :=
  instant.seconds < lastSecond ∨ instant.nanos < nanosPerSecond

instance : DecidablePred Instant.HasStoredMillis := fun _ => inferInstanceAs (Decidable (_ ∨ _))

theorem hasStoredMillis_of_hasStoredYear {instant : Instant} (inYears : instant.HasStoredYear) :
    instant.HasStoredMillis := by
  have finish := (yearOfDay_spec (instant.seconds / 86400 + epochDay)).2
  have bound := (daysBeforeYear_bounds (instant.date.year + 1)).2
  have last : instant.date.year ≤ 9999 := inYears.2
  have year : instant.date.year = yearOfDay (instant.seconds / 86400 + epochDay) := rfl
  rw [← year] at finish
  refine Or.inl ?_
  show instant.seconds < 8210266876799
  simp only [epochDay] at finish
  omega

theorem of?_isSome_iff (seconds : Int) (nanos : Nat) :
    (Instant.of? seconds nanos).isSome = true ↔ (firstSecond ≤ seconds ∧ seconds ≤ lastSecond) ∧
      (nanos < nanosPerSecond ∨ (nanos < 2 * nanosPerSecond ∧ seconds % 60 = 59)) := by
  unfold Instant.of?
  split
  · rename_i valid
    exact iff_of_true rfl valid
  · rename_i invalid
    exact iff_of_false Bool.noConfusion invalid

theorem ofEpochMillis?_epochMillis_isSome_iff (instant : Instant) :
    (Instant.ofEpochMillis? instant.epochMillis).isSome = true ↔ instant.HasStoredMillis := by
  have valid := instant.inRange
  have fraction := instant.fraction
  rw [Instant.ofEpochMillis?, of?_isSome_iff]
  simp only [Instant.epochMillis, Instant.HasStoredMillis, firstSecond, lastSecond, nanosPerSecond, nanosPerMilli]
    at valid fraction ⊢
  omega

theorem ofEpochMillis?_epochMillis {instant : Instant} (plain : instant.isLeapSecond = false) :
    Instant.ofEpochMillis? instant.epochMillis = some instant.truncate := by
  have short := of_decide_eq_false plain
  simp only [nanosPerSecond, nanosPerMilli, Instant.truncate, Instant.epochMillis, Instant.ofEpochMillis?] at short ⊢
  refine of?_eq ?_ ?_
  · show _ = instant.seconds
    omega
  · show _ = instant.nanos / 1000000 * 1000000
    omega

theorem toInt_epochMillis (instant : Instant) : (Int64.ofInt instant.epochMillis).toInt = instant.epochMillis := by
  have valid := instant.inRange
  have fraction := instant.fraction
  simp only [firstSecond, lastSecond, nanosPerSecond] at valid fraction
  refine Int64.toInt_ofInt_of_le ?_ ?_
  · simp only [Instant.epochMillis, nanosPerMilli]
    omega
  · simp only [Instant.epochMillis, nanosPerMilli]
    omega

end MetadataRegistry
