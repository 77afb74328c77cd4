import MetadataRegistry.Proofs.Calendar
import MetadataRegistry.Proofs.Digits

/-!
What the two written forms of an instant have in common: the same parts in the same places, of which only the
fraction differs. The parts of every instant are within the bounds that its readers check, and together they
are the instant again.
-/

namespace MetadataRegistry

theorem digitRun_stop (least most : Nat) {digits : List Char} (all : digits.all Char.isDigit = true)
    (enough : least ≤ digits.length) (few : digits.length ≤ most) (stop : Char) (rest : List Char)
    (other : stop.isDigit = false) :
    digitRun least most (digits ++ stop :: rest) = some (digits, stop :: rest) := by
  have taken : ((digits ++ stop :: rest).take most).takeWhile Char.isDigit = digits := by
    rw [List.take_append, List.take_of_length_le few, List.takeWhile_append_of_pos (List.all_eq_true.mp all)]
    cases most - digits.length with
    | zero => simp
    | succ more => simp [other]
  simp only [digitRun, taken]
  rw [if_neg (by omega), List.drop_left']
  rfl

theorem readFraction_paddedDigits {width value : Nat} (wide : 0 < width) (narrow : width ≤ 9)
    (fits : value < tenTo width) (rest : List Char) :
    readFraction ('.' :: (paddedDigits width value ++ 'Z' :: rest)) =
      some (value * tenTo (9 - width), 'Z' :: rest) := by
  have length := paddedDigits_length width value wide fits
  have run := digitRun_stop 1 9 (all_isDigit_paddedDigits width value) (by omega) (by omega) 'Z' rest (by decide)
  simp only [readFraction, run, Option.bind_eq_bind, Option.bind_some, length, ofDecimalDigits_paddedDigits]
  rfl

theorem of?_eq {instant : Instant} {seconds : Int} {nanos : Nat} (sameSeconds : seconds = instant.seconds)
    (sameNanos : nanos = instant.nanos) : Instant.of? seconds nanos = some instant := by
  rw [sameSeconds, sameNanos]
  exact dif_pos ⟨instant.inRange, instant.fraction⟩

theorem of?_eq_some_iff (seconds : Int) (nanos : Nat) (instant : Instant) :
    Instant.of? seconds nanos = some instant ↔ instant.seconds = seconds ∧ instant.nanos = nanos := by
  constructor
  · unfold Instant.of?
    split
    · rintro ⟨⟩
      exact ⟨rfl, rfl⟩
    · exact nofun
  · rintro ⟨rfl, rfl⟩
    exact of?_eq rfl rfl

namespace Instant

def writtenSecond (instant : Instant) : Nat :=
  instant.secondOfDay % 60 + if instant.isLeapSecond then 1 else 0

theorem render_eq (fraction : Nat → List Char) (instant : Instant) :
    instant.render fraction = yearText instant.date.year ++ '-' ::
      (paddedDigits 2 instant.date.month ++ '-' :: (paddedDigits 2 instant.date.day ++ 'T' ::
        (paddedDigits 2 (instant.secondOfDay / 3600) ++ ':' :: (paddedDigits 2 (instant.secondOfDay / 60 % 60) ++ ':' ::
          (paddedDigits 2 instant.writtenSecond ++ (fraction instant.subsecond ++ ['Z'])))))) := by
  simp only [render, dateText, clockText, writtenSecond, List.append_assoc, List.cons_append]

structure HasTwoDigits (instant : Instant) : Prop where
  month : instant.date.month < tenTo 2
  day : instant.date.day < tenTo 2
  hour : instant.secondOfDay / 3600 < tenTo 2
  minute : instant.secondOfDay / 60 % 60 < tenTo 2
  second : instant.writtenSecond < tenTo 2

theorem hasTwoDigits (instant : Instant) : instant.HasTwoDigits := by
  obtain ⟨⟨_, toTwelfth, _, toEnd⟩, _⟩ := ofDayNumber_spec (instant.seconds / 86400)
  have hundred : tenTo 2 = 100 := rfl
  have daySeconds : instant.secondOfDay < 86400 := by
    rw [Instant.secondOfDay]
    omega
  have dayBound : instant.date.day ≤ 31 := Nat.le_trans toEnd (daysInMonth_le _ _)
  refine ⟨Nat.lt_of_le_of_lt toTwelfth (by decide), ?_, ?_, ?_, ?_⟩
  · omega
  · omega
  · omega
  · unfold Instant.writtenSecond
    split <;> omega

theorem subsecond_lt (instant : Instant) : instant.subsecond < nanosPerSecond := Nat.mod_lt _ (by decide)

theorem millis_lt (instant : Instant) : instant.subsecond / nanosPerMilli < 1000 := by
  have short := instant.subsecond_lt
  simp only [nanosPerSecond, nanosPerMilli] at short ⊢
  omega

theorem millis_eq (instant : Instant) :
    instant.nanos / nanosPerMilli = instant.subsecond / nanosPerMilli + if instant.isLeapSecond then 1000 else 0 := by
  have fraction := instant.fraction
  unfold subsecond isLeapSecond
  by_cases leap : nanosPerSecond ≤ instant.nanos
  · rw [decide_eq_true leap, if_pos rfl]
    simp only [nanosPerSecond, nanosPerMilli] at fraction leap ⊢
    omega
  · rw [decide_eq_false leap, if_neg Bool.false_ne_true]
    simp only [nanosPerSecond, nanosPerMilli] at leap ⊢
    omega

theorem year_bounds (instant : Instant) : firstYear ≤ instant.date.year ∧ instant.date.year ≤ lastYear := by
  obtain ⟨start, finish⟩ := yearOfDay_spec (instant.seconds / 86400 + epochDay)
  have year : instant.date.year = yearOfDay (instant.seconds / 86400 + epochDay) := rfl
  obtain ⟨fromFirst, toLast⟩ := instant.inRange
  rw [← year] at start finish
  simp only [firstSecond, lastSecond, epochDay] at fromFirst toLast start finish
  have first : daysBeforeYear firstYear = -95745764 := rfl
  have next : daysBeforeYear (lastYear + 1) = 95745765 := rfl
  constructor
  · refine Int.not_lt.mp fun early => ?_
    have bound := (daysBeforeYear_bounds (instant.date.year + 1)).2
    by_cases last : instant.date.year + 1 = firstYear
    · rw [last] at finish
      omega
    · simp only [firstYear] at early last
      omega
  · refine Int.not_lt.mp fun late => ?_
    have bound := (daysBeforeYear_bounds instant.date.year).1
    by_cases last : instant.date.year = lastYear + 1
    · rw [last] at start
      omega
    · simp only [lastYear] at late last
      omega

theorem instant?_parts (instant : Instant) :
    Reading.instant? ⟨instant.date, instant.secondOfDay / 3600, instant.secondOfDay / 60 % 60, instant.writtenSecond,
      instant.subsecond, 0⟩ = some instant := by
  obtain ⟨validDate, sameDay⟩ := ofDayNumber_spec (instant.seconds / 86400)
  have secondOfDay : (instant.secondOfDay : Int) = instant.seconds % 86400 := by
    rw [Instant.secondOfDay]
    omega
  have fraction := instant.fraction
  simp only [nanosPerSecond] at fraction
  have date : Date.dayNumber instant.date * 86400 + instant.seconds % 86400 = instant.seconds := by
    rw [Instant.date, sameDay]
    omega
  have valid : Reading.IsValid ⟨instant.date, instant.secondOfDay / 3600, instant.secondOfDay / 60 % 60,
      instant.writtenSecond, instant.subsecond, 0⟩ := by
    refine ⟨validDate, instant.year_bounds.1, instant.year_bounds.2, ?_, ?_, ?_⟩
    · show instant.secondOfDay / 3600 ≤ 23
      omega
    · show instant.secondOfDay / 60 % 60 ≤ 59
      omega
    · show instant.writtenSecond ≤ 60
      unfold Instant.writtenSecond
      split <;> omega
  rw [Reading.instant?, if_pos valid]
  have billion : nanosPerSecond = 1000000000 := rfl
  by_cases leap : nanosPerSecond ≤ instant.nanos
  · have sixty : instant.writtenSecond = 60 := by
      rw [Instant.writtenSecond, Instant.isLeapSecond, decide_eq_true leap, if_pos rfl]
      omega
    simp only [sixty, if_true]
    refine of?_eq ?_ ?_
    · show _ = instant.seconds
      omega
    · show instant.nanos % 1000000000 + 1000000000 = instant.nanos
      omega
  · have plain : instant.writtenSecond = instant.secondOfDay % 60 := by
      rw [Instant.writtenSecond, Instant.isLeapSecond, decide_eq_false leap]
      rfl
    have notSixty : instant.secondOfDay % 60 ≠ 60 := by omega
    simp only [plain, if_neg notSixty]
    refine of?_eq ?_ ?_
    · show _ = instant.seconds
      omega
    · show instant.nanos % 1000000000 + 0 = instant.nanos
      omega

end Instant

end MetadataRegistry
