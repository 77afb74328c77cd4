import MetadataRegistry.Json.Reader

/-!
The spelling of strings and numbers in a document. A body is what may stand between two quotes; the
reader takes exactly the bodies, and unescaping gives back what escaping wrote. A number literal
consists of number characters and starts with a digit or a minus sign.
-/

namespace MetadataRegistry

inductive IsBody : List Char → Prop
  | nil : IsBody []
  | unicode {a b c d rest} : [a, b, c, d].all isHexDigit = true → IsBody rest →
      IsBody ('\\' :: 'u' :: a :: b :: c :: d :: rest)
  | short {letter rest} : isShortEscape letter = true → IsBody rest → IsBody ('\\' :: letter :: rest)
  | plain {character rest} : 32 ≤ character.toNat → character ≠ '\\' → character ≠ '"' → IsBody rest →
      IsBody (character :: rest)

theorem readBody_append {body : List Char} (spelled : IsBody body) (rest : List Char) :
    readBody (body ++ '"' :: rest) = some (body, rest) := by
  induction spelled with
  | nil => simp [readBody]
  | unicode hexadecimal _ ih =>
      simp only [List.cons_append, readBody, hexadecimal, if_true, ih, Option.map_some]
  | @short letter body escape _ ih =>
      have notUnicode : letter ≠ 'u' := by
        rintro rfl
        exact absurd escape (by decide)
      simp only [List.cons_append]
      rw [readBody.eq_4]
      · simp only [escape, if_true, ih, Option.map_some]
      · intro a b c d tail same
        exact fun _ => notUnicode same
  | @plain character body printable notBackslash notQuote _ ih =>
      simp only [List.cons_append]
      rw [readBody.eq_5]
      · have notControl : ¬ (character.toNat < 32 ∨ character = '\\') := by
          rintro (control | backslash)
          · omega
          · exact notBackslash backslash
        simp only [notControl, if_false, ih, Option.map_some]
      · exact notQuote
      · intro a b c d tail same
        exact fun _ => notBackslash same
      · intro letter tail same
        exact fun _ => notBackslash same

theorem isBody_of_readBody (text : List Char) : ∀ body rest, readBody text = some (body, rest) → IsBody body := by
  fun_induction readBody text with
  | case1 => simp
  | case2 tail =>
      intro body rest found
      simp only [Option.some.injEq, Prod.mk.injEq] at found
      rw [← found.1]
      exact .nil
  | case3 a b c d tail hexadecimal ih =>
      intro body rest found
      obtain ⟨⟨inner, innerRest⟩, read, same⟩ := Option.map_eq_some_iff.mp found
      simp only [Prod.mk.injEq] at same
      rw [← same.1]
      exact .unicode hexadecimal (ih inner innerRest read)
  | case4 => simp
  | case5 letter tail _ escape ih =>
      intro body rest found
      obtain ⟨⟨inner, innerRest⟩, read, same⟩ := Option.map_eq_some_iff.mp found
      simp only [Prod.mk.injEq] at same
      rw [← same.1]
      exact .short escape (ih inner innerRest read)
  | case6 => simp
  | case7 => simp
  | case8 character tail notQuote _ _ printable ih =>
      intro body rest found
      obtain ⟨⟨inner, innerRest⟩, read, same⟩ := Option.map_eq_some_iff.mp found
      simp only [Prod.mk.injEq] at same
      rw [← same.1]
      simp only [not_or, Nat.not_lt] at printable
      exact .plain printable.1 printable.2 notQuote (ih inner innerRest read)

theorem hexOfNumber_control : ∀ value, value < 32 →
    hexOfNumber 4 value = ['0', '0', hexDigit (value / 16), hexDigit (value % 16)] := by
  decide

theorem isHexDigit_control : ∀ value, value < 32 →
    ['0', '0', hexDigit (value / 16), hexDigit (value % 16)].all isHexDigit = true := by
  decide

theorem numberOfHex_control : ∀ value, value < 32 →
    numberOfHex ['0', '0', hexDigit (value / 16), hexDigit (value % 16)] = some value := by
  decide

theorem escapedCharacter_of_shortEscape {character letter : Char}
    (found : shortEscape character = some letter) : escapedCharacter letter = some character := by
  unfold shortEscape at found
  split at found <;> simp only [Option.some.injEq, reduceCtorEq] at found <;> rw [← found] <;> rfl

theorem isBody_escapeCharacter (character : Char) {body : List Char} (spelled : IsBody body) :
    IsBody (escapeCharacter character ++ body) := by
  unfold escapeCharacter
  split
  · rename_i letter found
    refine .short ?_ spelled
    simp [isShortEscape, escapedCharacter_of_shortEscape found]
  · rename_i noEscape
    split
    · rename_i control
      rw [hexOfNumber_control _ control]
      exact .unicode (isHexDigit_control _ control) spelled
    · rename_i printable
      refine .plain (by omega) ?_ ?_ spelled
      · rintro rfl
        simp [shortEscape] at noEscape
      · rintro rfl
        simp [shortEscape] at noEscape

theorem isBody_escapeBody (text : List Char) : IsBody (escapeBody text) := by
  induction text with
  | nil => exact .nil
  | cons character rest ih => exact isBody_escapeCharacter character ih

theorem unescapeBody_unicode (a b c d : Char) (rest : List Char) (unit : Nat)
    (digits : numberOfHex [a, b, c, d] = some unit) (single : unit < 0xD800) :
    unescapeBody ('\\' :: 'u' :: a :: b :: c :: d :: rest) =
      (unescapeBody rest).map (Char.ofNat unit :: ·) := by
  have notHigh : isHighSurrogate unit = false := by simp [isHighSurrogate]; omega
  have notLow : isLowSurrogate unit = false := by simp [isLowSurrogate]; omega
  rw [unescapeBody.eq_def]
  split
  · rename_i same
    cases same
  · rename_i same
    cases same
    simp only [digits, notHigh, notLow, Option.bind_eq_bind, Option.bind_some, Option.pure_def, Bool.false_eq_true,
      if_false, Option.map_eq_bind]
    rfl
  · rename_i same
    cases same
    simp only [digits, notHigh, notLow, Option.bind_eq_bind, Option.bind_some, Option.pure_def, Bool.or_eq_true,
      Bool.false_eq_true, or_self, if_false, Option.map_eq_bind]
    rfl
  · rename_i notUnicode same
    cases same
    exact absurd rfl (notUnicode _ _ _ _ _ rfl)
  · rename_i same
    cases same
  · rename_i notEscape _ same
    cases same
    exact absurd rfl (notEscape _ _ rfl)

theorem unescapeBody_short (letter character : Char) (rest : List Char)
    (escape : escapedCharacter letter = some character) :
    unescapeBody ('\\' :: letter :: rest) = (unescapeBody rest).map (character :: ·) := by
  have notUnicode : letter ≠ 'u' := by
    rintro rfl
    simp [escapedCharacter] at escape
  rw [unescapeBody.eq_4]
  · simp only [escape, Option.bind_eq_bind, Option.bind_some, Option.pure_def, Option.map_eq_bind]
    rfl
  · intro a b c d e f g h tail same
    exact fun _ => notUnicode same
  · intro a b c d tail same
    exact fun _ => notUnicode same

theorem unescapeBody_plain (character : Char) (rest : List Char) (notBackslash : character ≠ '\\') :
    unescapeBody (character :: rest) = (unescapeBody rest).map (character :: ·) := by
  rw [unescapeBody.eq_6]
  · simp only [Option.bind_eq_bind, Option.pure_def, Option.map_eq_bind]
    rfl
  all_goals
    intros
    exact absurd ‹_› notBackslash

theorem unescapeBody_escapeCharacter (character : Char) (rest : List Char) :
    unescapeBody (escapeCharacter character ++ rest) = (unescapeBody rest).map (character :: ·) := by
  unfold escapeCharacter
  split
  · rename_i letter found
    exact unescapeBody_short letter character rest (escapedCharacter_of_shortEscape found)
  · rename_i noEscape
    split
    · rename_i control
      rw [hexOfNumber_control _ control]
      have read := unescapeBody_unicode _ _ _ _ rest _ (numberOfHex_control _ control) (by omega)
      rwa [Char.ofNat_toNat] at read
    · refine unescapeBody_plain character rest ?_
      rintro rfl
      simp [shortEscape] at noEscape

theorem unescapeBody_escapeBody (text : List Char) : unescapeBody (escapeBody text) = some text := by
  induction text with
  | nil => simp [escapeBody, unescapeBody]
  | cons character rest ih =>
      have written : escapeBody (character :: rest) = escapeCharacter character ++ escapeBody rest := rfl
      rw [written, unescapeBody_escapeCharacter, ih, Option.map_some]

def EndsNumber (rest : List Char) : Prop := ∀ character ∈ rest.head?, isNumberCharacter character = false

theorem isNumberCharacter_of_isDigit {character : Char} (digit : character.isDigit = true) :
    isNumberCharacter character = true := by
  simp [isNumberCharacter, digit]

theorem takeWhile_append_dropWhile_all {predicate other : Char → Bool} {text : List Char}
    (front : ∀ character ∈ text.takeWhile predicate, other character = true)
    (back : ∀ character ∈ text.dropWhile predicate, other character = true) :
    ∀ character ∈ text, other character = true := by
  intro character member
  rw [← List.takeWhile_append_dropWhile (p := predicate) (l := text)] at member
  rcases List.mem_append.mp member with early | late
  · exact front character early
  · exact back character late

theorem numberCharacters_of_digits {digits : List Char} (all : digits.all Char.isDigit = true) :
    ∀ character ∈ digits, isNumberCharacter character = true :=
  fun character member => isNumberCharacter_of_isDigit (List.all_eq_true.mp all character member)

theorem numberCharacters_cons {first : Char} {rest : List Char} (accepted : isNumberCharacter first = true)
    (later : ∀ character ∈ rest, isNumberCharacter character = true) :
    ∀ character ∈ first :: rest, isNumberCharacter character = true := by
  intro character member
  rcases List.mem_cons.mp member with rfl | after
  · exact accepted
  · exact later character after

theorem numberCharacters_of_readNatural {digits : List Char} (read : (readNatural digits).isSome = true) :
    ∀ character ∈ digits, isNumberCharacter character = true := by
  unfold readNatural at read
  split at read
  · rename_i valid
    simp only [Bool.and_eq_true] at valid
    exact numberCharacters_of_digits valid.2
  · simp at read

theorem numberCharacters_of_readExponentPart {text : List Char}
    (read : (readExponentPart text).isSome = true) :
    ∀ character ∈ text, isNumberCharacter character = true := by
  unfold readExponentPart at read
  split at read
  · rename_i digits
    have natural : (readNatural digits).isSome = true := by
      cases found : readNatural digits <;> simp [found] at read ⊢
    exact numberCharacters_cons rfl (numberCharacters_of_readNatural natural)
  · rename_i digits
    have natural : (readNatural digits).isSome = true := by
      cases found : readNatural digits <;> simp [found] at read ⊢
    exact numberCharacters_cons rfl (numberCharacters_of_readNatural natural)
  · have natural : (readNatural text).isSome = true := by
      cases found : readNatural text <;> simp [found] at read ⊢
    exact numberCharacters_of_readNatural natural

theorem numberCharacters_of_readExponent {text : List Char} (read : (readExponent text).isSome = true) :
    ∀ character ∈ text, isNumberCharacter character = true := by
  cases text with
  | nil => simp
  | cons mark rest =>
      simp only [readExponent] at read
      split at read
      · rename_i isMark
        rw [Option.isSome_map] at read
        have accepted : isNumberCharacter mark = true := by
          rcases isMark with rfl | rfl <;> rfl
        exact numberCharacters_cons accepted (numberCharacters_of_readExponentPart read)
      · simp at read

theorem digits_takeWhile (text : List Char) :
    ∀ character ∈ text.takeWhile Char.isDigit, isNumberCharacter character = true :=
  numberCharacters_of_digits List.all_takeWhile

theorem numberCharacters_of_unsigned {text : List Char} (whole : isWholePart (text.takeWhile Char.isDigit) = true)
    (after : ∀ character ∈ text.dropWhile Char.isDigit, isNumberCharacter character = true) :
    (∀ character ∈ text, isNumberCharacter character = true) ∧ ∃ first ∈ text.head?, first.isDigit = true := by
  refine ⟨takeWhile_append_dropWhile_all (digits_takeWhile text) after, ?_⟩
  cases text with
  | nil => simp [isWholePart] at whole
  | cons first rest =>
      refine ⟨first, by simp, ?_⟩
      cases digit : first.isDigit with
      | true => rfl
      | false => simp [digit, isWholePart] at whole

theorem numberCharacters_of_readUnsigned {negative : Bool} {text : List Char}
    (read : (NumberLiteral.readUnsigned negative text).isSome = true) :
    (∀ character ∈ text, isNumberCharacter character = true) ∧ ∃ first ∈ text.head?, first.isDigit = true := by
  simp only [NumberLiteral.readUnsigned] at read
  split at read
  · simp at read
  · rename_i whole
    refine numberCharacters_of_unsigned (by simpa using whole) ?_
    split at read
    · rename_i fractional same
      rw [same]
      split at read
      · simp at read
      · refine numberCharacters_cons rfl (takeWhile_append_dropWhile_all (digits_takeWhile fractional) ?_)
        apply numberCharacters_of_readExponent
        cases found : readExponent (fractional.dropWhile Char.isDigit) <;> simp [found] at read ⊢
    · apply numberCharacters_of_readExponent
      cases found : readExponent (text.dropWhile Char.isDigit) <;> simp [found] at read ⊢

theorem numberCharacters_of_read {text : List Char} (read : (NumberLiteral.read text).isSome = true) :
    ∃ rest, (text = rest ∨ text = '-' :: rest) ∧
      (∀ character ∈ rest, isNumberCharacter character = true) ∧
      ∃ first ∈ rest.head?, first.isDigit = true := by
  unfold NumberLiteral.read at read
  split at read
  · rename_i rest
    exact ⟨rest, Or.inr rfl, numberCharacters_of_readUnsigned read⟩
  · exact ⟨text, Or.inl rfl, numberCharacters_of_readUnsigned read⟩

theorem numberCharacters_of_isNumberLiteral {literal : List Char} (valid : isNumberLiteral literal = true) :
    ∀ character ∈ literal, isNumberCharacter character = true := by
  obtain ⟨rest, origin, all, _⟩ := numberCharacters_of_read valid
  rcases origin with rfl | rfl
  · exact all
  · exact numberCharacters_cons rfl all

theorem head_of_isNumberLiteral {literal : List Char} (valid : isNumberLiteral literal = true) :
    ∃ first rest, literal = first :: rest ∧ (first = '-' ∨ first.isDigit = true) := by
  obtain ⟨rest, origin, _, first, isFirst, digit⟩ := numberCharacters_of_read valid
  rcases origin with rfl | rfl
  · cases literal with
    | nil => simp at isFirst
    | cons head tail =>
        simp only [List.head?_cons, Option.mem_def, Option.some.injEq] at isFirst
        exact ⟨head, tail, rfl, Or.inr (by rw [isFirst]; exact digit)⟩
  · exact ⟨'-', rest, rfl, Or.inl rfl⟩

theorem readNumberLiteral_append {literal rest : List Char} (valid : isNumberLiteral literal = true)
    (ends : EndsNumber rest) : readNumberLiteral (literal ++ rest) = some (.number literal, rest) := by
  have all := numberCharacters_of_isNumberLiteral valid
  have stopTake : rest.takeWhile isNumberCharacter = [] := by
    cases rest with
    | nil => rfl
    | cons next tail => simp [ends next (by simp)]
  have stopDrop : rest.dropWhile isNumberCharacter = rest := by
    cases rest with
    | nil => rfl
    | cons next tail => simp [ends next (by simp)]
  unfold readNumberLiteral
  rw [List.takeWhile_append_of_pos all, stopTake, List.append_nil, List.dropWhile_append_of_pos all, stopDrop]
  simp only [valid, if_true]

def signed (negative : Bool) (text : List Char) : List Char := if negative then '-' :: text else text

theorem read_signed (negative : Bool) {first : Char} {rest : List Char} (digit : first.isDigit = true) :
    NumberLiteral.read (signed negative (first :: rest)) = NumberLiteral.readUnsigned negative (first :: rest) := by
  cases negative with
  | true => rfl
  | false =>
      rw [signed, if_neg (by decide), NumberLiteral.read.eq_2]
      rintro tail same
      cases same
      exact absurd digit (by decide)

def EndsDigits (rest : List Char) : Prop := ∀ character ∈ rest.head?, character.isDigit = false

theorem takeWhile_isDigit_append {digits rest : List Char} (all : digits.all Char.isDigit = true)
    (ends : EndsDigits rest) : (digits ++ rest).takeWhile Char.isDigit = digits := by
  rw [List.takeWhile_append_of_pos (List.all_eq_true.mp all)]
  cases rest with
  | nil => simp
  | cons next tail => simp [ends next (by simp)]

theorem dropWhile_isDigit_append {digits rest : List Char} (all : digits.all Char.isDigit = true)
    (ends : EndsDigits rest) : (digits ++ rest).dropWhile Char.isDigit = rest := by
  rw [List.dropWhile_append_of_pos (List.all_eq_true.mp all)]
  cases rest with
  | nil => simp
  | cons next tail => simp [ends next (by simp)]

structure IsExponentText (text : List Char) (exponent : Option Int) : Prop where
  read : readExponent text = some exponent
  ends : EndsDigits text
  noPoint : ∀ rest, text ≠ '.' :: rest

theorem isExponentText_nil : IsExponentText [] none := ⟨rfl, by simp [EndsDigits], by simp⟩

theorem readUnsigned_whole (negative : Bool) {whole text : List Char} {exponent : Option Int}
    (isWhole : isWholePart whole = true) (digits : whole.all Char.isDigit = true)
    (last : IsExponentText text exponent) :
    NumberLiteral.readUnsigned negative (whole ++ text) = some ⟨negative, whole, none, exponent⟩ := by
  simp only [NumberLiteral.readUnsigned, takeWhile_isDigit_append digits last.ends,
    dropWhile_isDigit_append digits last.ends, isWhole]
  split
  · rename_i impossible
    simp at impossible
  · split
    · rename_i rest
      exact absurd rfl (last.noPoint rest)
    · simp [last.read]

theorem readUnsigned_fraction (negative : Bool) {whole fraction text : List Char} {exponent : Option Int}
    (isWhole : isWholePart whole = true) (digits : whole.all Char.isDigit = true)
    (nonempty : fraction ≠ []) (fractionDigits : fraction.all Char.isDigit = true)
    (last : IsExponentText text exponent) :
    NumberLiteral.readUnsigned negative (whole ++ '.' :: (fraction ++ text)) =
      some ⟨negative, whole, some fraction, exponent⟩ := by
  have point : EndsDigits ('.' :: (fraction ++ text)) := by simp [EndsDigits]
  simp only [NumberLiteral.readUnsigned, takeWhile_isDigit_append digits point,
    dropWhile_isDigit_append digits point, isWhole, takeWhile_isDigit_append fractionDigits last.ends,
    dropWhile_isDigit_append fractionDigits last.ends]
  simp [last.read, nonempty]

end MetadataRegistry
