import MetadataRegistry.Proofs.StoredTime
import MetadataRegistry.Proofs.TextOrder

/-!
The order of stored times. As long as years have four digits, the texts that are kept of instants are ordered as the
instants are, cut down to milliseconds: every part has its fixed place and width, a later part counts only if those
before it are alike, and a leap second comes after the last second of its minute.
-/

namespace MetadataRegistry

theorem daysBeforeYear_succ_le {year later : Int} (before : year < later) :
    daysBeforeYear (year + 1) ≤ daysBeforeYear later := by
  by_cases next : later = year + 1
  · subst next
    exact Int.le_refl _
  · have upper := (daysBeforeYear_bounds (year + 1)).2
    have lower := (daysBeforeYear_bounds later).1
    omega

theorem totalDays_take_le (lengths : List Nat) {index limit : Nat} (before : index < limit) :
    totalDays (lengths.take index) + lengths[index]?.getD 0 ≤ totalDays (lengths.take limit) := by
  induction lengths generalizing index limit with
  | nil => simp [totalDays]
  | cons length rest ih =>
    cases limit with
    | zero => exact absurd before (Nat.not_lt_zero index)
    | succ limit =>
      cases index with
      | zero => simp [totalDays]
      | succ index =>
        have inner := ih (Nat.lt_of_succ_lt_succ before)
        simp only [List.take_succ_cons, totalDays, List.getElem?_cons_succ]
        omega

namespace Date

variable {left right : Date}

theorem daysBeforeMonth_add_le (valid : left.IsValid) {limit : Nat} (before : left.month - 1 < limit) :
    left.daysBeforeMonth + left.day ≤ totalDays ((monthLengths left.year).take limit) := by
  have passed := totalDays_take_le (monthLengths left.year) before
  have inMonth : left.day ≤ (monthLengths left.year)[left.month - 1]?.getD 0 := valid.2.2.2
  rw [daysBeforeMonth_eq]
  omega

theorem dayNumber_lt_of_year (valid : left.IsValid) (rightValid : right.IsValid) (before : left.year < right.year) :
    left.dayNumber < right.dayNumber := by
  have years := daysBeforeYear_succ_le before
  have inYear := daysBeforeMonth_add_le valid (show left.month - 1 < 12 by have twelfth := valid.2.1; omega)
  have whole : totalDays ((monthLengths left.year).take 12) = totalDays (monthLengths left.year) := rfl
  have first : 1 ≤ right.day := rightValid.2.2.1
  rw [daysBeforeYear_succ] at years
  unfold dayNumber
  omega

theorem dayNumber_lt_of_month (valid : left.IsValid) (rightValid : right.IsValid) (sameYear : left.year = right.year)
    (before : left.month < right.month) : left.dayNumber < right.dayNumber := by
  have inMonths := daysBeforeMonth_add_le valid
    (show left.month - 1 < right.month - 1 by have first := valid.1; omega)
  have first : 1 ≤ right.day := rightValid.2.2.1
  rw [sameYear, ← daysBeforeMonth_eq] at inMonths
  unfold dayNumber
  rw [sameYear]
  omega

theorem dayNumber_sub_of_month (sameYear : left.year = right.year) (sameMonth : left.month = right.month) :
    left.dayNumber - right.dayNumber = left.day - right.day := by
  have sameStart : left.daysBeforeMonth = right.daysBeforeMonth := by
    rw [daysBeforeMonth_eq, daysBeforeMonth_eq, sameYear, sameMonth]
  unfold dayNumber
  rw [sameYear, sameStart]
  omega

theorem eq_of_dayNumber_eq (valid : left.IsValid) (rightValid : right.IsValid)
    (same : left.dayNumber = right.dayNumber) : left = right := by
  have sameYear : left.year = right.year := by
    rcases Int.lt_trichotomy left.year right.year with before | equal | after
    · have less := dayNumber_lt_of_year valid rightValid before
      omega
    · exact equal
    · have less := dayNumber_lt_of_year rightValid valid after
      omega
  have sameMonth : left.month = right.month := by
    rcases Nat.lt_trichotomy left.month right.month with before | equal | after
    · have less := dayNumber_lt_of_month valid rightValid sameYear before
      omega
    · exact equal
    · have less := dayNumber_lt_of_month rightValid valid sameYear.symm after
      omega
  have sameDay : left.day = right.day := by
    have days := dayNumber_sub_of_month sameYear sameMonth
    omega
  obtain ⟨year, month, day⟩ := left
  obtain rfl := sameYear
  obtain rfl := sameMonth
  obtain rfl := sameDay
  rfl

theorem compare_parts (valid : left.IsValid) (rightValid : right.IsValid) (leftYear : 0 ≤ left.year)
    (rightYear : 0 ≤ right.year) :
    (compare left.year.toNat right.year.toNat).then
        ((compare left.month right.month).then (compare left.day right.day)) =
      compare left.dayNumber right.dayNumber := by
  refine then_eq_of_decides (fun less => ?_) (fun sameYear => ?_) (fun greater => ?_)
  · rw [Nat.compare_eq_lt] at less
    exact Int.compare_eq_lt.mpr (dayNumber_lt_of_year valid rightValid (by omega))
  · have sameYear : left.year = right.year := by
      rw [Nat.compare_eq_eq] at sameYear
      omega
    refine then_eq_of_decides (fun less => ?_) (fun sameMonth => ?_) (fun greater => ?_)
    · exact Int.compare_eq_lt.mpr (dayNumber_lt_of_month valid rightValid sameYear (Nat.compare_eq_lt.mp less))
    · have sameMonth := Nat.compare_eq_eq.mp sameMonth
      have sameStart : left.daysBeforeMonth = right.daysBeforeMonth := by
        rw [daysBeforeMonth_eq, daysBeforeMonth_eq, sameYear, sameMonth]
      have difference : left.dayNumber - right.dayNumber = left.day - right.day := by
        unfold dayNumber
        rw [sameYear, sameStart]
        omega
      exact compare_eq_of_lt_iff (by omega) (by omega)
    · exact Int.compare_eq_gt.mpr (dayNumber_lt_of_month rightValid valid sameYear.symm (Nat.compare_eq_gt.mp greater))
  · rw [Nat.compare_eq_gt] at greater
    exact Int.compare_eq_gt.mpr (dayNumber_lt_of_year rightValid valid (by omega))

end Date

theorem compare_then_scaled {unit left right leftPart rightPart : Nat} (short : leftPart < unit)
    (rightShort : rightPart < unit) :
    (compare left right).then (compare leftPart rightPart) =
      compare (left * unit + leftPart) (right * unit + rightPart) := by
  have less {first second firstPart secondPart : Nat} (within : firstPart < unit) (before : first < second) :
      first * unit + firstPart < second * unit + secondPart := by
    have next : (first + 1) * unit ≤ second * unit := Nat.mul_le_mul_right unit before
    rw [Nat.succ_mul] at next
    omega
  refine then_eq_of_decides (fun before => ?_) (fun same => ?_) (fun after => ?_)
  · exact Nat.compare_eq_lt.mpr (less short (Nat.compare_eq_lt.mp before))
  · rw [Nat.compare_eq_eq.mp same]
    exact compare_eq_of_lt_iff (by omega) (by omega)
  · exact Nat.compare_eq_gt.mpr (less rightShort (Nat.compare_eq_gt.mp after))

theorem writtenMillis_eq (instant : Instant) :
    instant.writtenSecond * 1000 + instant.subsecond / nanosPerMilli =
      instant.secondOfDay % 60 * 1000 + instant.truncate.nanos / nanosPerMilli := by
  have whole : instant.truncate.nanos / nanosPerMilli = instant.nanos / nanosPerMilli :=
    Nat.mul_div_cancel _ (by decide)
  rw [whole, instant.millis_eq, Instant.writtenSecond]
  split <;> omega

theorem compare_clock (left right : Instant) :
    (compare (left.secondOfDay / 3600) (right.secondOfDay / 3600)).then
        ((compare (left.secondOfDay / 60 % 60) (right.secondOfDay / 60 % 60)).then
          ((compare left.writtenSecond right.writtenSecond).then
            (compare (left.subsecond / nanosPerMilli) (right.subsecond / nanosPerMilli)))) =
      (compare left.secondOfDay right.secondOfDay).then (compare left.truncate.nanos right.truncate.nanos) := by
  have fraction (instant : Instant) : ∃ millis, instant.truncate.nanos = millis * 1000000 ∧
      instant.truncate.nanos / nanosPerMilli = millis ∧ millis < 2000 ∧
      (1000 ≤ millis → instant.secondOfDay % 60 = 59) := by
    have valid := instant.truncate.fraction
    refine ⟨instant.nanos / 1000000, rfl, ?_, ?_, ?_⟩
    · simp only [Instant.truncate, nanosPerMilli]
      omega
    · simp only [Instant.truncate, nanosPerMilli, nanosPerSecond] at valid
      omega
    · simp only [Instant.truncate, nanosPerMilli, nanosPerSecond, Instant.secondOfDay] at valid ⊢
      omega
  obtain ⟨leftMillis, leftNanos, leftWhole, leftBound, leftLeap⟩ := fraction left
  obtain ⟨rightMillis, rightNanos, rightWhole, rightBound, rightLeap⟩ := fraction right
  rw [compare_then_scaled left.millis_lt right.millis_lt, writtenMillis_eq, writtenMillis_eq, leftWhole, rightWhole,
    leftNanos, rightNanos]
  have bound (second millis : Nat) (short : millis < 2000) : second % 60 * 1000 + millis < 61000 := by omega
  have minute (second rest : Nat) (short : rest < 61000) : second / 60 % 60 * 61000 + rest < 3660000 := by omega
  rw [compare_then_scaled (bound left.secondOfDay leftMillis leftBound)
      (bound right.secondOfDay rightMillis rightBound),
    compare_then_scaled (minute left.secondOfDay _ (bound left.secondOfDay leftMillis leftBound))
      (minute right.secondOfDay _ (bound right.secondOfDay rightMillis rightBound)),
    compare_then_scaled (show leftMillis * 1000000 < 2000000000 by omega)
      (show rightMillis * 1000000 < 2000000000 by omega)]
  have hours (second : Nat) : second / 3600 = second / 60 / 60 := by omega
  rw [hours, hours]
  rcases Nat.lt_trichotomy left.secondOfDay right.secondOfDay with before | same | after
  · rw [Nat.compare_eq_lt.mpr (by omega), Nat.compare_eq_lt.mpr (by omega)]
  · rw [same]
    exact compare_eq_of_lt_iff (by omega) (by omega)
  · rw [Nat.compare_eq_gt.mpr (by omega), Nat.compare_eq_gt.mpr (by omega)]

theorem compare_field {width left right : Nat} (wide : 0 < width) (fits : left < tenTo width)
    (rightFits : right < tenTo width) (mark : Char) (rest others : List Char) :
    compare (paddedDigits width left ++ mark :: rest) (paddedDigits width right ++ mark :: others) =
      (compare left right).then (compare rest others) := by
  have aligned : (paddedDigits width left).length = (paddedDigits width right).length :=
    (paddedDigits_length width left wide fits).trans (paddedDigits_length width right wide rightFits).symm
  rw [compare_append aligned, compare_paddedDigits wide fits rightFits, compare_cons_self]

theorem compare_secondOfDay (left right : Instant) :
    (compare (left.seconds / 86400) (right.seconds / 86400)).then (compare left.secondOfDay right.secondOfDay) =
      compare left.seconds right.seconds := by
  unfold Instant.secondOfDay
  refine then_eq_of_decides (fun less => ?_) (fun same => ?_) (fun greater => ?_)
  · rw [Int.compare_eq_lt] at less ⊢
    omega
  · rw [Int.compare_eq_eq] at same
    exact compare_eq_of_lt_iff (by omega) (by omega)
  · rw [Int.compare_eq_gt] at greater ⊢
    omega

theorem compare_storedText {left right : Instant} (inYears : left.HasStoredYear) (rightInYears : right.HasStoredYear) :
    compare left.storedText right.storedText = left.truncate.compare right.truncate := by
  have threeDigits (instant : Instant) : instant.subsecond / nanosPerMilli < tenTo 3 := instant.millis_lt
  have short := left.hasTwoDigits
  have rightShort := right.hasTwoDigits
  have dated (instant : Instant) : instant.date.IsValid ∧ instant.date.dayNumber = instant.seconds / 86400 :=
    ofDayNumber_spec (instant.seconds / 86400)
  have dates := Date.compare_parts (dated left).1 (dated right).1 inYears.1 rightInYears.1
  rw [(dated left).2, (dated right).2] at dates
  rw [compare_text, Instant.storedText, Instant.storedText, String.toList_ofList, String.toList_ofList,
    Instant.render_eq, Instant.render_eq, inYears.yearText, rightInYears.yearText,
    compare_field (by decide) inYears.fourDigits rightInYears.fourDigits,
    compare_field (by decide) short.month rightShort.month, compare_field (by decide) short.day rightShort.day,
    compare_field (by decide) short.hour rightShort.hour, compare_field (by decide) short.minute rightShort.minute,
    milliFraction, milliFraction, List.cons_append, List.cons_append,
    compare_field (by decide) short.second rightShort.second,
    compare_field (by decide) (threeDigits left) (threeDigits right), Std.compare_self, Ordering.then_eq,
    compare_clock]
  simp only [← Ordering.then_assoc] at dates ⊢
  rw [dates, compare_secondOfDay]
  rfl

namespace Instant

variable {left right : Instant}

theorem le_iff : left.le right = true ↔
    left.seconds < right.seconds ∨ left.seconds = right.seconds ∧ left.nanos ≤ right.nanos := by
  rw [le, Instant.compare, Ordering.isLE_then_iff_and, Std.isLE_compare, Std.isLE_compare, Std.compare_eq_lt]
  omega

theorem compare_eq_lt_iff : left.compare right = .lt ↔ ¬right.le left = true := by
  rw [le_iff, Instant.compare, Ordering.then_eq_lt, Int.compare_eq_lt, Int.compare_eq_eq, Nat.compare_eq_lt]
  omega

theorem le_refl (instant : Instant) : instant.le instant = true := le_iff.mpr (.inr ⟨rfl, Nat.le_refl _⟩)

theorem le_trans {between : Instant} (first : left.le between = true) (second : between.le right = true) :
    left.le right = true := by
  rw [le_iff] at first second ⊢
  omega

theorem truncate_le (instant : Instant) : instant.truncate.le instant = true :=
  le_iff.mpr (.inr ⟨rfl, Nat.div_mul_le_self _ _⟩)

theorem truncate_le_truncate (ordered : left.le right = true) : left.truncate.le right.truncate = true := by
  rcases le_iff.mp ordered with earlier | ⟨same, before⟩
  · exact le_iff.mpr (.inl earlier)
  · exact le_iff.mpr (.inr ⟨same, Nat.mul_le_mul_right _ (Nat.div_le_div_right before)⟩)

end Instant

theorem compare_leapSecond {plain leap : Instant} (isPlain : plain.isLeapSecond = false)
    (isLeap : leap.isLeapSecond = true) : plain.compare leap = .lt ↔ plain.seconds ≤ leap.seconds := by
  have below := of_decide_eq_false isPlain
  have above := of_decide_eq_true isLeap
  rw [Instant.compare_eq_lt_iff, Instant.le_iff]
  omega

end MetadataRegistry
