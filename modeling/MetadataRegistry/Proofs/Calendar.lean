import MetadataRegistry.Calendar

/-!
Every count of days is the day number of one valid date: the year found by the estimate is the one that
holds the day, and the months of a year share its days out.
-/

namespace MetadataRegistry

theorem isLeapYear_iff (year : Int) :
    isLeapYear year = true ↔ year % 4 = 0 ∧ (year % 100 ≠ 0 ∨ year % 400 = 0) := by
  simp [isLeapYear]

def totalDays : List Nat → Nat
  | [] => 0
  | length :: rest => length + totalDays rest

theorem foldl_add_eq (lengths : List Nat) : ∀ days : Nat, lengths.foldl (· + ·) days = days + totalDays lengths := by
  induction lengths with
  | nil => exact fun _ => rfl
  | cons length rest ih =>
      intro days
      rw [List.foldl_cons, ih, totalDays, Nat.add_assoc]

theorem totalDays_monthLengths (year : Int) :
    totalDays (monthLengths year) = if isLeapYear year then 366 else 365 := by
  unfold monthLengths
  split <;> rfl

theorem daysBeforeYear_succ (year : Int) :
    daysBeforeYear (year + 1) = daysBeforeYear year + totalDays (monthLengths year) := by
  have leap := isLeapYear_iff year
  rw [totalDays_monthLengths]
  unfold daysBeforeYear
  split
  · rename_i isLeap
    have divides := leap.mp isLeap
    omega
  · rename_i notLeap
    have indivisible : ¬(year % 4 = 0 ∧ (year % 100 ≠ 0 ∨ year % 400 = 0)) := fun divides =>
      notLeap (leap.mpr divides)
    omega

/-- Four hundred years have 146097 days, and any number of years has that share of them but for a part
of less than two days. -/
theorem daysBeforeYear_bounds (year : Int) :
    146097 * year - 396 ≤ 400 * daysBeforeYear year ∧ 400 * daysBeforeYear year ≤ 146097 * year + 699 := by
  unfold daysBeforeYear
  omega

theorem yearOfDay_spec (day : Int) :
    daysBeforeYear (yearOfDay day) ≤ day ∧ day < daysBeforeYear (yearOfDay day + 1) := by
  have estimate : 146097 * (day * 400 / 146097) ≤ day * 400 ∧ day * 400 < 146097 * (day * 400 / 146097) + 146097 := by
    omega
  unfold yearOfDay
  simp only
  generalize day * 400 / 146097 = year at estimate
  have before := daysBeforeYear_bounds (year - 1)
  have after := daysBeforeYear_bounds (year + 1 + 1)
  split
  · rename_i early
    rw [Int.sub_add_cancel]
    omega
  · split <;> omega

theorem daysInMonth_le (year : Int) (month : Nat) : daysInMonth year month ≤ 31 := by
  have short : ∀ length ∈ monthLengths year, length ≤ 31 := by
    unfold monthLengths
    split <;> decide
  unfold daysInMonth
  cases found : (monthLengths year)[month - 1]? with
  | none => exact Nat.zero_le 31
  | some length => exact short length (List.mem_of_getElem? found)

theorem monthOfDay_spec (lengths : List Nat) : ∀ month day : Nat, day < totalDays lengths →
    ∃ index length, (monthOfDay lengths month day).1 = month + index ∧ lengths[index]? = some length ∧
      (monthOfDay lengths month day).2 < length ∧
        totalDays (lengths.take index) + (monthOfDay lengths month day).2 = day := by
  induction lengths with
  | nil =>
      intro month day within
      exact absurd within (Nat.not_lt_zero day)
  | cons length rest ih =>
      intro month day within
      rw [totalDays] at within
      unfold monthOfDay
      split
      · rename_i early
        exact ⟨0, length, rfl, rfl, early, Nat.zero_add day⟩
      · rename_i late
        obtain ⟨index, found, place, present, inside, total⟩ := ih (month + 1) (day - length) (by omega)
        refine ⟨index + 1, found, by omega, present, inside, ?_⟩
        rw [List.take_succ_cons, totalDays]
        omega

theorem daysBeforeMonth_eq (date : Date) :
    date.daysBeforeMonth = totalDays ((monthLengths date.year).take (date.month - 1)) := by
  rw [Date.daysBeforeMonth, foldl_add_eq, Nat.zero_add]

theorem ofDayNumber_spec (number : Int) :
    (Date.ofDayNumber number).IsValid ∧ (Date.ofDayNumber number).dayNumber = number := by
  obtain ⟨start, finish⟩ := yearOfDay_spec (number + epochDay)
  rw [daysBeforeYear_succ] at finish
  obtain ⟨index, length, month, present, inside, total⟩ :=
    monthOfDay_spec (monthLengths (yearOfDay (number + epochDay)))
    1 (number + epochDay - daysBeforeYear (yearOfDay (number + epochDay))).toNat (by omega)
  have bound : index < 12 := (List.getElem?_eq_some_iff.mp present).1
  rw [Date.dayNumber, daysBeforeMonth_eq]
  simp only [Date.IsValid, Date.ofDayNumber, daysInMonth, month, Nat.add_sub_cancel_left, present, Option.getD_some]
  omega

end MetadataRegistry
