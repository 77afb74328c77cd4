import MetadataRegistry.Proofs.WrittenTime

/-!
Exchanged times. The text in which an instant is given to callers is read back as the same instant, whatever its
year and its fraction are and in a leap second too. The reader skips blanks between the parts; the text has none.
-/

namespace MetadataRegistry

theorem isBlank_of_isDigit {character : Char} (digit : character.isDigit = true) : isBlank character = false := by
  have bounds : 48 ≤ character.toNat ∧ character.toNat ≤ 57 := by
    simp only [Char.isDigit, Bool.and_eq_true, decide_eq_true_eq] at digit
    exact ⟨digit.1, digit.2⟩
  refine List.any_eq_false.mpr ?_
  simp only [blankRanges, List.mem_cons, List.not_mem_nil, or_false, Bool.and_eq_true, decide_eq_true_eq]
  intro range member
  rcases member with rfl | rfl | rfl | rfl | rfl | rfl | rfl | rfl | rfl | rfl | rfl <;>
    (simp only; omega)

theorem trimStart_digits {digits : List Char} (all : digits.all Char.isDigit = true) (some : digits ≠ [])
    (rest : List Char) : trimStart (digits ++ rest) = digits ++ rest := by
  obtain ⟨first, more, rfl⟩ := List.exists_cons_of_ne_nil some
  exact trimStart_eq_self_of_head first (more ++ rest)
    (isBlank_of_isDigit (List.all_eq_true.mp all first List.mem_cons_self))

theorem paddedDigits_ne_nil (width value : Nat) : paddedDigits width value ≠ [] := by
  intro empty
  exact decimalDigits_ne_nil value (List.append_eq_nil_iff.mp empty).2

theorem readPart_paddedDigits {value : Nat} (fits : value < tenTo 2) (stop : Char) (rest : List Char)
    (other : stop.isDigit = false) :
    readPart (paddedDigits 2 value ++ stop :: rest) = some (value, stop :: rest) := by
  have digits := all_isDigit_paddedDigits 2 value
  have length := paddedDigits_length 2 value (by decide) fits
  have run := digitRun_stop 1 2 digits (by omega) (by omega) stop rest other
  rw [readPart, trimStart_digits digits (paddedDigits_ne_nil 2 value)]
  simp only [readNumber, run, Option.map_some, ofDecimalDigits_paddedDigits]

theorem readYear_of_isDigit {first : Char} (digit : first.isDigit = true) (rest : List Char) :
    readYear (first :: rest) = (readNumber 1 4 (first :: rest)).map fun (year, rest) => ((year : Int), rest) := by
  have notMinus : first ≠ '-' := by
    rintro rfl
    exact absurd digit (by decide)
  have notPlus : first ≠ '+' := by
    rintro rfl
    exact absurd digit (by decide)
  simp [readYear, trimStart_eq_self_of_head first rest (isBlank_of_isDigit digit), notMinus, notPlus]

theorem readYear_fourDigits {year : Nat} (fits : year < tenTo 4) (rest : List Char) :
    readYear (paddedDigits 4 year ++ '-' :: rest) = some ((year : Int), '-' :: rest) := by
  have digits := all_isDigit_paddedDigits 4 year
  have length := paddedDigits_length 4 year (by decide) fits
  have run := digitRun_stop 1 4 digits (by omega) (by omega) '-' rest (by decide)
  have number : readNumber 1 4 (paddedDigits 4 year ++ '-' :: rest) = some (year, '-' :: rest) := by
    simp only [readNumber, run, Option.map_some, ofDecimalDigits_paddedDigits]
  obtain ⟨first, more, text⟩ := List.exists_cons_of_ne_nil (paddedDigits_ne_nil 4 year)
  rw [text, List.all_cons, Bool.and_eq_true] at digits
  rw [text, List.cons_append] at number ⊢
  rw [readYear_of_isDigit digits.1, number]
  rfl

theorem readNumber_signed (value : Nat) (rest : List Char) :
    readNumber 1 (paddedDigits 4 value ++ '-' :: rest).length (paddedDigits 4 value ++ '-' :: rest) =
      some (value, '-' :: rest) := by
  have digitsLeft : (paddedDigits 4 value).length ≤ (paddedDigits 4 value ++ '-' :: rest).length := by
    rw [List.length_append]
    omega
  have enough : 1 ≤ (paddedDigits 4 value).length := List.length_pos_iff.mpr (paddedDigits_ne_nil 4 value)
  have run := digitRun_stop 1 _ (all_isDigit_paddedDigits 4 value) enough digitsLeft '-' rest (by decide)
  simp only [readNumber, run, Option.map_some, ofDecimalDigits_paddedDigits]

theorem readYear_yearText (year : Int) (rest : List Char) :
    readYear (yearText year ++ '-' :: rest) = some (year, '-' :: rest) := by
  unfold yearText
  split
  · rename_i unsigned
    have tenThousand : tenTo 4 = 10000 := rfl
    have same : (year.toNat : Int) = year := Int.toNat_of_nonneg unsigned.1
    rw [readYear_fourDigits (by omega), same]
  · split
    · have same : -(year.natAbs : Int) = year := by omega
      rw [List.cons_append, readYear, trimStart_eq_self_of_head '-' _ (by decide)]
      simp only [readNumber_signed, Option.map_some, same]
    · have same : (year.natAbs : Int) = year := by omega
      rw [List.cons_append, readYear, trimStart_eq_self_of_head '+' _ (by decide)]
      simp only [readNumber_signed, Option.map_some, same]

theorem skipMark_cons (mark : Char) (visible : isBlank mark = false) (rest : List Char) :
    skipMark mark (mark :: rest) = some rest := by
  rw [skipMark, trimStart_eq_self_of_head mark rest visible]
  exact if_pos rfl

theorem readFraction_exactFraction {nanos : Nat} (fits : nanos < nanosPerSecond) (rest : List Char) :
    readFraction (exactFraction nanos ++ 'Z' :: rest) = some (nanos, 'Z' :: rest) := by
  have thousand : tenTo 3 = 1000 := rfl
  have million : tenTo 6 = 1000000 := rfl
  have billion : tenTo 9 = 1000000000 := rfl
  have one : tenTo 0 = 1 := rfl
  simp only [nanosPerSecond] at fits
  unfold exactFraction
  split
  · rename_i none
    rw [none]
    rfl
  · split
    · rename_i millis
      have exact : nanos / 1000000 * tenTo (9 - 3) = nanos := by
        rw [million]
        omega
      rw [List.cons_append, readFraction_paddedDigits (by decide) (by decide) (by omega), exact]
    · split
      · rename_i micros
        have exact : nanos / 1000 * tenTo (9 - 6) = nanos := by
          rw [thousand]
          omega
        rw [List.cons_append, readFraction_paddedDigits (by decide) (by decide) (by omega), exact]
      · have exact : nanos * tenTo (9 - 9) = nanos := by rw [Nat.sub_self, one, Nat.mul_one]
        rw [List.cons_append, readFraction_paddedDigits (by decide) (by decide) (by omega), exact]

theorem fraction_ends (nanos : Nat) :
    ∃ stop rest, exactFraction nanos ++ ['Z'] = stop :: rest ∧ stop.isDigit = false := by
  unfold exactFraction
  split
  · exact ⟨'Z', [], rfl, rfl⟩
  · split
    · exact ⟨'.', _, rfl, rfl⟩
    · split
      · exact ⟨'.', _, rfl, rfl⟩
      · exact ⟨'.', _, rfl, rfl⟩

theorem readExchanged_parts {year : Int} {month day hour minute second nanos : Nat} (shortMonth : month < tenTo 2)
    (shortDay : day < tenTo 2) (shortHour : hour < tenTo 2) (shortMinute : minute < tenTo 2)
    (shortSecond : second < tenTo 2) (fits : nanos < nanosPerSecond) :
    readExchanged (yearText year ++ '-' :: (paddedDigits 2 month ++ '-' :: (paddedDigits 2 day ++ 'T' ::
      (paddedDigits 2 hour ++ ':' :: (paddedDigits 2 minute ++ ':' :: (paddedDigits 2 second ++
        (exactFraction nanos ++ ['Z']))))))) =
      Reading.instant? ⟨⟨year, month, day⟩, hour, minute, second, nanos, 0⟩ := by
  obtain ⟨stop, rest, ending, other⟩ := fraction_ends nanos
  have seconds : readPart (paddedDigits 2 second ++ (exactFraction nanos ++ ['Z'])) =
      some (second, exactFraction nanos ++ ['Z']) := by
    rw [ending]
    exact readPart_paddedDigits shortSecond stop rest other
  have zone : readZoneName (trimStart ['Z']) = some (0, []) := rfl
  have atEnd : (trimStart []).isEmpty = true := rfl
  have hyphen : Char.isDigit '-' = false := rfl
  have colon : Char.isDigit ':' = false := rfl
  have separator : Char.isDigit 'T' = false := rfl
  have visibleHyphen : isBlank '-' = false := by decide
  have visibleColon : isBlank ':' = false := by decide
  unfold readExchanged
  simp only [readYear_yearText, skipMark_cons _ visibleHyphen, skipMark_cons _ visibleColon,
    readPart_paddedDigits shortMonth _ _ hyphen, readPart_paddedDigits shortDay _ _ separator,
    readPart_paddedDigits shortHour _ _ colon, readPart_paddedDigits shortMinute _ _ colon, seconds,
    readFraction_exactFraction fits [], skipDateTimeSeparator, isDateTimeSeparator, zone, atEnd,
    Option.bind_eq_bind, Option.bind_some, if_true, beq_self_eq_true, Bool.true_or]

namespace Instant

theorem parse?_text (instant : Instant) : parse? instant.text = some instant := by
  have short := instant.hasTwoDigits
  rw [parse?, text, String.toList_ofList, render_eq,
    readExchanged_parts short.month short.day short.hour short.minute short.second instant.subsecond_lt]
  exact instant.instant?_parts

end Instant

end MetadataRegistry
