import MetadataRegistry.Proofs.Identifiers

/-!
The spellings of an identifier. A text is read as an identifier exactly if, in lower case, it is the identifier's
digits in one of four layouts. The layouts differ in length, so that no text is read in two of them.
-/

namespace MetadataRegistry

theorem toNat_toLower (character : Char) :
    character.toLower.toNat =
      if 65 ≤ character.toNat ∧ character.toNat ≤ 90 then character.toNat + 32 else character.toNat := by
  unfold Char.toLower
  split
  · rename_i upper
    have bounds : 65 ≤ character.toNat ∧ character.toNat ≤ 90 := upper
    have moved : (character.val + ('a'.val - 'A'.val)).toNat = (character.toNat + 32) % 4294967296 :=
      UInt32.toNat_add _ _
    rw [if_pos bounds]
    exact moved.trans (Nat.mod_eq_of_lt (by omega))
  · rename_i lower
    exact (if_neg lower).symm

theorem toLower_eq_iff {mark : Char} (plain : mark.toNat < 65 ∨ 122 < mark.toNat) (character : Char) :
    character.toLower = mark ↔ character = mark := by
  rw [← Char.toNat_inj, ← Char.toNat_inj, toNat_toLower]
  split <;> omega

theorem toNat_hexDigit :
    ∀ value, value < 16 → (hexDigit value).toNat = if value < 10 then 48 + value else 87 + value := by
  decide

theorem hexValue_eq_some_iff_code (character : Char) (value : Nat) :
    hexValue character = some value ↔
      (48 ≤ character.toNat ∧ character.toNat ≤ 57 ∧ value = character.toNat - 48) ∨
        (97 ≤ character.toNat ∧ character.toNat ≤ 102 ∧ value = character.toNat - 87) ∨
          (65 ≤ character.toNat ∧ character.toNat ≤ 70 ∧ value = character.toNat - 55) := by
  unfold hexValue
  dsimp only
  repeat' split
  all_goals
    simp only [Option.some.injEq, reduceCtorEq, false_iff]
    omega

theorem hexValue_eq_some_iff (character : Char) (value : Nat) :
    hexValue character = some value ↔ value < 16 ∧ character.toLower = hexDigit value := by
  rw [hexValue_eq_some_iff_code, ← Char.toNat_inj, toNat_toLower]
  by_cases small : value < 16
  · rw [toNat_hexDigit value small]
    split <;> split <;> omega
  · omega

theorem hexOfBytes_cons (byte : UInt8) (rest : List UInt8) :
    hexOfBytes (byte :: rest) = hexDigit (byte.toNat / 16) :: hexDigit (byte.toNat % 16) :: hexOfBytes rest := rfl

theorem bytesOfHex_cons_eq_some_iff (high low : Char) (rest : List Char) (byte : UInt8) (bytes : List UInt8) :
    bytesOfHex (high :: low :: rest) = some (byte :: bytes) ↔
      hexValue high = some (byte.toNat / 16) ∧ hexValue low = some (byte.toNat % 16) ∧
        bytesOfHex rest = some bytes := by
  have bound := byte.toNat_lt
  simp only [bytesOfHex, Option.bind_eq_bind, Option.bind_eq_some_iff, Option.pure_def, Option.some.injEq,
    List.cons.injEq]
  constructor
  · rintro ⟨highValue, highRead, lowValue, lowRead, others, restRead, rfl, rfl⟩
    have highSmall := ((hexValue_eq_some_iff high highValue).mp highRead).1
    have lowSmall := ((hexValue_eq_some_iff low lowValue).mp lowRead).1
    have whole : (UInt8.ofNat (16 * highValue + lowValue)).toNat = 16 * highValue + lowValue := by
      rw [UInt8.toNat_ofNat']
      omega
    rw [whole, show (16 * highValue + lowValue) / 16 = highValue by omega,
      show (16 * highValue + lowValue) % 16 = lowValue by omega]
    exact ⟨highRead, lowRead, restRead⟩
  · rintro ⟨highRead, lowRead, restRead⟩
    refine ⟨_, highRead, _, lowRead, bytes, restRead, ?_, rfl⟩
    rw [Nat.div_add_mod, UInt8.ofNat_toNat]

theorem bytesOfHex_eq_some_iff (digits : List Char) :
    ∀ bytes, bytesOfHex digits = some bytes ↔ digits.map Char.toLower = hexOfBytes bytes := by
  fun_induction bytesOfHex digits with
  | case1 =>
    intro bytes
    cases bytes with
    | nil => exact iff_of_true rfl rfl
    | cons byte rest => exact iff_of_false nofun nofun
  | case2 digit =>
    intro bytes
    refine iff_of_false nofun fun single => ?_
    have odd := congrArg List.length single
    rw [length_hexOfBytes, List.length_map, List.length_singleton] at odd
    omega
  | case3 high low rest ih =>
    intro bytes
    cases bytes with
    | nil =>
      refine iff_of_false (fun read => ?_) nofun
      simp only [Option.bind_eq_bind, Option.bind_eq_some_iff, Option.pure_def, Option.some.injEq, reduceCtorEq,
        and_false, exists_false] at read
    | cons byte bytes =>
      have bound := byte.toNat_lt
      have pair := bytesOfHex_cons_eq_some_iff high low rest byte bytes
      rw [bytesOfHex] at pair
      have highSmall : byte.toNat / 16 < 16 := by omega
      have lowSmall : byte.toNat % 16 < 16 := by omega
      rw [pair, ih, hexValue_eq_some_iff, hexValue_eq_some_iff, hexOfBytes_cons, List.map_cons, List.map_cons,
        List.cons.injEq, List.cons.injEq, and_iff_right highSmall, and_iff_right lowSmall]

theorem exists_split_of_getElem? {α : Type} {list : List α} {place : Nat} {found : α}
    (present : list[place]? = some found) :
    ∃ before after, before.length = place ∧ list = before ++ found :: after := by
  obtain ⟨within, same⟩ := List.getElem?_eq_some_iff.mp present
  refine ⟨list.take place, list.drop (place + 1), List.length_take_of_le (Nat.le_of_lt within), ?_⟩
  rw [← same, List.getElem_cons_drop, List.take_append_drop]

theorem hyphenate_append {first second third fourth : List Char} (firstLength : first.length = 8)
    (secondLength : second.length = 4) (thirdLength : third.length = 4) (fourthLength : fourth.length = 4)
    (last : List Char) :
    hyphenate (first ++ (second ++ (third ++ (fourth ++ last)))) =
      first ++ '-' :: (second ++ '-' :: (third ++ '-' :: (fourth ++ '-' :: last))) := by
  have passed {part : List Char} {count : Nat} (short : part.length ≤ count) : part.drop count = [] :=
    List.drop_eq_nil_of_le short
  simp (disch := omega) [hyphenate, List.drop_append, firstLength, secondLength, thirdLength, passed]

theorem eq_hyphenate_of_unhyphenate {text digits : List Char} (read : unhyphenate text = some digits) :
    digits.length = 32 ∧ text = hyphenate digits := by
  simp only [unhyphenate, hyphenPlaces, List.forall_mem_cons] at read
  split at read
  · rename_i grouped
    obtain ⟨whole, count, first, second, third, fourth, _⟩ := grouped
    cases read
    refine ⟨count, ?_⟩
    obtain ⟨a, rest, aLength, rfl⟩ := exists_split_of_getElem? first
    rw [List.getElem?_append_right (by omega), aLength, List.getElem?_cons_succ] at second third fourth
    obtain ⟨b, rest, bLength, rfl⟩ := exists_split_of_getElem? second
    rw [List.getElem?_append_right (by omega), bLength, List.getElem?_cons_succ] at third fourth
    obtain ⟨c, rest, cLength, rfl⟩ := exists_split_of_getElem? third
    rw [List.getElem?_append_right (by omega), cLength, List.getElem?_cons_succ] at fourth
    obtain ⟨d, e, dLength, rfl⟩ := exists_split_of_getElem? fourth
    -- With thirty-two characters that are no hyphens, none of the five groups has one.
    have hyphen : ('-' != '-') = false := rfl
    simp only [List.filter_append, List.filter_cons, hyphen, Bool.false_eq_true, if_false, List.length_append,
      List.length_cons] at whole count ⊢
    have kept (group : List Char) : (group.filter (· != '-')).length ≤ group.length := List.length_filter_le _ _
    have plain (group : List Char) (all : (group.filter (· != '-')).length = group.length) :
        group.filter (· != '-') = group :=
      List.filter_eq_self.mpr (List.length_filter_eq_length_iff.mp all)
    have inA := kept a
    have inB := kept b
    have inC := kept c
    have inD := kept d
    have inE := kept e
    rw [plain a (by omega), plain b (by omega), plain c (by omega), plain d (by omega), plain e (by omega),
      hyphenate_append aLength (by omega) (by omega) (by omega)]
  · cases read

theorem unhyphenate_eq_some_iff (text : List Char) {digits : List Char} (plain : ∀ digit ∈ digits, digit ≠ '-') :
    unhyphenate text = some digits ↔ digits.length = 32 ∧ text = hyphenate digits := by
  constructor
  · exact eq_hyphenate_of_unhyphenate
  · rintro ⟨length, rfl⟩
    exact unhyphenate_hyphenate length plain

theorem unhyphenate_map_toLower (text : List Char) :
    unhyphenate (text.map Char.toLower) = (unhyphenate text).map (·.map Char.toLower) := by
  have hyphen (character : Char) : character.toLower = '-' ↔ character = '-' :=
    toLower_eq_iff (Or.inl (by decide)) character
  have digits : (text.map Char.toLower).filter (· != '-') = (text.filter (· != '-')).map Char.toLower := by
    rw [List.filter_map]
    refine congrArg (List.map Char.toLower) (List.filter_congr fun character _ => ?_)
    rw [Function.comp_apply, Bool.eq_iff_iff, bne_iff_ne, bne_iff_ne, ne_eq, ne_eq, hyphen]
  have places (place : Nat) : (text.map Char.toLower)[place]? = some '-' ↔ text[place]? = some '-' := by
    rw [List.getElem?_map]
    cases text[place]? <;> simp [hyphen]
  simp only [unhyphenate, digits, List.length_map, places]
  split <;> rfl

/-! Layouts. -/

theorem insideBraces_eq_some_iff {text inner : List Char} :
    insideBraces text = some inner ↔ text = '{' :: (inner ++ ['}']) := by
  unfold insideBraces
  split
  · rename_i rest
    rw [List.cons.injEq, eq_self, true_and]
    split
    · rename_i closed
      rw [Option.some.injEq]
      constructor
      · rintro rfl
        exact (List.getLast?_eq_some_iff.mp closed).elim fun front same => by rw [same, List.dropLast_concat]
      · rintro rfl
        exact List.dropLast_concat
    · rename_i notClosed
      refine iff_of_false nofun ?_
      rintro rfl
      exact notClosed List.getLast?_concat
  · rename_i notBraced
    refine iff_of_false nofun ?_
    rintro rfl
    exact notBraced _ rfl

def urnPrefix : List Char := ['u', 'r', 'n', ':', 'u', 'u', 'i', 'd', ':']

theorem afterUrn_eq_some_iff {text inner : List Char} :
    afterUrn text = some inner ↔ (text.take 9).map Char.toLower = urnPrefix ∧ text.drop 9 = inner := by
  have named : "urn:uuid:".toList = urnPrefix := rfl
  unfold afterUrn
  rw [named]
  split
  · rename_i same
    rw [Option.some.injEq, and_iff_right same]
  · rename_i other
    exact iff_of_false nofun fun both => other both.1

theorem groups_eq_some_iff (text : List Char) (bytes : List UInt8) :
    (unhyphenate text).bind bytesOfHex = some bytes ↔
      bytes.length = 16 ∧ text.map Char.toLower = hyphenate (hexOfBytes bytes) := by
  have grouped := unhyphenate_eq_some_iff (text.map Char.toLower) (ne_hyphen_of_mem_hexOfBytes bytes)
  rw [unhyphenate_map_toLower, Option.map_eq_some_iff, length_hexOfBytes] at grouped
  simp only [Option.bind_eq_some_iff, bytesOfHex_eq_some_iff, grouped]
  exact and_congr_left' (by omega)

namespace IdentifierLayout

def frame : IdentifierLayout → List Char → List Char
  | plain, digits => digits
  | hyphenated, digits => hyphenate digits
  | braced, digits => '{' :: (hyphenate digits ++ ['}'])
  | urn, digits => urnPrefix ++ hyphenate digits

def spelling (layout : IdentifierLayout) (bytes : List UInt8) : List Char := layout.frame (hexOfBytes bytes)

def Spells {kind : IdentifierKind} (layout : IdentifierLayout) (text : String) (id : Identifier kind) : Prop :=
  text.toList.map Char.toLower = layout.spelling id.bytes

instance {kind : IdentifierKind} (layout : IdentifierLayout) (text : String) (id : Identifier kind) :
    Decidable (layout.Spells text id) :=
  inferInstanceAs (Decidable (_ = _))

/-- The text is that of the identifier in this layout, with digits of either case and all else as the layout has it. -/
def SpellsByDigits {kind : IdentifierKind} (layout : IdentifierLayout) (text : String) (id : Identifier kind) : Prop :=
  ∃ digits : List Char, digits.map Char.toLower = hexOfBytes id.bytes ∧ text.toList = layout.frame digits

def width : IdentifierLayout → Nat
  | plain => 32
  | hyphenated => 36
  | braced => 38
  | urn => 45

theorem eq_of_width_eq {layout other : IdentifierLayout} (same : layout.width = other.width) : layout = other := by
  cases layout <;> cases other <;> first | rfl | cases same

theorem length_frame (layout : IdentifierLayout) {digits : List Char} (count : digits.length = 32) :
    (layout.frame digits).length = layout.width := by
  have grouped := length_hyphenate count
  cases layout with
  | plain => exact count
  | hyphenated => exact grouped
  | braced => rw [frame, List.length_cons, List.length_append, grouped, List.length_singleton, width]
  | urn =>
    have nine : urnPrefix.length = 9 := rfl
    rw [frame, List.length_append, grouped, nine, width]

theorem length_spelling (layout : IdentifierLayout) {bytes : List UInt8} (sixteen : bytes.length = 16) :
    (layout.spelling bytes).length = layout.width :=
  layout.length_frame (by rw [length_hexOfBytes, sixteen])

theorem read_plain_iff (text : List Char) (bytes : List UInt8) :
    plain.read text = some bytes ↔ bytes.length = 16 ∧ text.map Char.toLower = plain.spelling bytes := by
  have counted (same : text.map Char.toLower = hexOfBytes bytes) : text.length = 2 * bytes.length := by
    rw [← length_hexOfBytes, ← same, List.length_map]
  simp only [read, digits, spelling, frame]
  split
  · rename_i whole
    rw [Option.bind_some, bytesOfHex_eq_some_iff]
    exact ⟨fun same => ⟨by have count := counted same; omega, same⟩, And.right⟩
  · rename_i other
    refine iff_of_false (by rintro ⟨⟩) ?_
    rintro ⟨sixteen, same⟩
    exact other (by rw [counted same, sixteen])

theorem read_braced_iff (text : List Char) (bytes : List UInt8) :
    braced.read text = some bytes ↔ bytes.length = 16 ∧ text.map Char.toLower = braced.spelling bytes := by
  simp only [read, digits, spelling, frame, Option.bind_assoc, Option.bind_eq_some_iff (x := insideBraces text),
    groups_eq_some_iff, insideBraces_eq_some_iff]
  constructor
  · rintro ⟨inner, rfl, sixteen, same⟩
    refine ⟨sixteen, ?_⟩
    rw [List.map_cons, List.map_append, same]
    rfl
  · rintro ⟨sixteen, same⟩
    obtain ⟨opening, rest, rfl, opens, restSame⟩ := List.map_eq_cons_iff.mp same
    obtain ⟨inner, last, rfl, innerSame, lastSame⟩ := List.map_eq_append_iff.mp restSame
    obtain ⟨closing, rfl, closes⟩ := List.map_eq_singleton_iff.mp lastSame
    obtain rfl := (toLower_eq_iff (Or.inr (by decide)) opening).mp opens
    obtain rfl := (toLower_eq_iff (Or.inr (by decide)) closing).mp closes
    exact ⟨inner, rfl, sixteen, innerSame⟩

theorem read_urn_iff (text : List Char) (bytes : List UInt8) :
    urn.read text = some bytes ↔ bytes.length = 16 ∧ text.map Char.toLower = urn.spelling bytes := by
  simp only [read, digits, spelling, frame, Option.bind_assoc, Option.bind_eq_some_iff (x := afterUrn text),
    groups_eq_some_iff, afterUrn_eq_some_iff]
  constructor
  · rintro ⟨inner, ⟨named, rfl⟩, sixteen, same⟩
    refine ⟨sixteen, ?_⟩
    rw [← named, ← same, ← List.map_append, List.take_append_drop]
  · rintro ⟨sixteen, same⟩
    refine ⟨text.drop 9, ⟨?_, rfl⟩, sixteen, ?_⟩
    · rw [List.map_take, same]
      exact List.take_left' rfl
    · rw [List.map_drop, same]
      exact List.drop_left' rfl

theorem read_eq_some_iff (layout : IdentifierLayout) (text : List Char) (bytes : List UInt8) :
    layout.read text = some bytes ↔ bytes.length = 16 ∧ text.map Char.toLower = layout.spelling bytes := by
  cases layout with
  | plain => exact read_plain_iff text bytes
  | hyphenated => exact groups_eq_some_iff text bytes
  | braced => exact read_braced_iff text bytes
  | urn => exact read_urn_iff text bytes

theorem length_of_read {layout : IdentifierLayout} {text : List Char} (read : (layout.read text).isSome = true) :
    text.length = layout.width := by
  obtain ⟨bytes, found⟩ := Option.isSome_iff_exists.mp read
  obtain ⟨sixteen, same⟩ := (layout.read_eq_some_iff text bytes).mp found
  rw [← layout.length_spelling sixteen, ← same, List.length_map]

theorem eq_of_read {layout other : IdentifierLayout} {text : List Char} (read : (layout.read text).isSome = true)
    (otherRead : (other.read text).isSome = true) : layout = other :=
  eq_of_width_eq ((length_of_read read).symm.trans (length_of_read otherRead))

end IdentifierLayout

theorem readIdentifierBytes_eq_some_iff (text : List Char) (bytes : List UInt8) :
    readIdentifierBytes text = some bytes ↔ ∃ layout : IdentifierLayout, layout.read text = some bytes := by
  constructor
  · intro found
    obtain ⟨layout, _, read⟩ := List.exists_of_findSome?_eq_some found
    exact ⟨layout, read⟩
  · rintro ⟨layout, read⟩
    have listed : layout ∈ IdentifierLayout.all := by cases layout <;> decide
    cases found : readIdentifierBytes text with
    | none =>
      have unread := List.findSome?_eq_none_iff.mp found layout listed
      rw [read] at unread
      cases unread
    | some first =>
      obtain ⟨other, _, otherRead⟩ := List.exists_of_findSome?_eq_some found
      obtain rfl := IdentifierLayout.eq_of_read (Option.isSome_of_eq_some read) (Option.isSome_of_eq_some otherRead)
      exact otherRead.symm.trans read

namespace Identifier

variable {kind : IdentifierKind}

theorem parse_eq_ok_iff (text : String) (id : Identifier kind) :
    parse text = .ok id ↔ ∃ layout : IdentifierLayout, layout.Spells text id := by
  have spelled (layout : IdentifierLayout) : layout.Spells text id ↔ layout.read text.toList = some id.bytes := by
    rw [layout.read_eq_some_iff, and_iff_right id.sixteen]
    rfl
  simp only [spelled, ← readIdentifierBytes_eq_some_iff, parse]
  cases readIdentifierBytes text.toList with
  | none => exact iff_of_false (by rintro ⟨⟩) (by rintro ⟨⟩)
  | some bytes =>
    rw [Option.some.injEq]
    dsimp only
    split
    · rw [Except.ok.injEq, Identifier.mk.injEq]
    · rename_i other
      refine iff_of_false (by rintro ⟨⟩) ?_
      rintro rfl
      exact other id.sixteen

theorem spells_text (id : Identifier kind) : IdentifierLayout.hyphenated.Spells id.text id := by
  have count : (hexOfBytes id.bytes).length = 32 := by rw [length_hexOfBytes, id.sixteen]
  refine ((groups_eq_some_iff id.text.toList id.bytes).mp ?_).2
  rw [text, String.toList_ofList, unhyphenate_hyphenate count (ne_hyphen_of_mem_hexOfBytes id.bytes), Option.bind_some,
    bytesOfHex_hexOfBytes]

theorem ofBytes_eq_ok_iff (bytes : List UInt8) (id : Identifier kind) : ofBytes bytes = .ok id ↔ bytes = id.bytes := by
  unfold ofBytes
  split
  · rw [Except.ok.injEq, Identifier.mk.injEq]
  · rename_i other
    refine iff_of_false (by rintro ⟨⟩) ?_
    rintro rfl
    exact other id.sixteen

end Identifier

/-- A text is read as an identifier exactly if it is one of its spellings: the thirty-two digits alone, in hyphenated
groups of 8, 4, 4, 4 and 12, these in braces, or these after `urn:uuid:`, in letters of either case. So the text of an
identifier is read as that identifier, two spellings of the same bytes are read alike, and no text is read in two
layouts. Bytes are an identifier exactly if there are sixteen of them, and then they are its bytes. -/
theorem parse_accepts_spellings (kind : IdentifierKind) :
    (∀ (text : String) (id : Identifier kind),
      Identifier.parse text = .ok id ↔ ∃ layout : IdentifierLayout, layout.Spells text id) ∧
    (∀ id : Identifier kind, Identifier.parse id.text = .ok id) ∧
    (∀ (layout other : IdentifierLayout) (text otherText : String) (id : Identifier kind),
      layout.Spells text id → other.Spells otherText id →
        Identifier.parse text = .ok id ∧ Identifier.parse otherText = .ok id) ∧
    (∀ (layout other : IdentifierLayout) (text : String),
      (layout.read text.toList).isSome = true → (other.read text.toList).isSome = true → layout = other) ∧
    (∀ bytes : List UInt8, (∃ id : Identifier kind, Identifier.ofBytes bytes = .ok id) ↔ bytes.length = 16) ∧
    ∀ id : Identifier kind, Identifier.ofBytes id.bytes = .ok id := by
  refine ⟨Identifier.parse_eq_ok_iff, fun id => ?_, fun layout other text otherText id spelled otherSpelled => ?_,
    fun layout other text => IdentifierLayout.eq_of_read, fun bytes => ?_, fun id => ?_⟩
  · exact (Identifier.parse_eq_ok_iff id.text id).mpr ⟨.hyphenated, id.spells_text⟩
  · exact ⟨(Identifier.parse_eq_ok_iff text id).mpr ⟨layout, spelled⟩,
      (Identifier.parse_eq_ok_iff otherText id).mpr ⟨other, otherSpelled⟩⟩
  · simp only [Identifier.ofBytes_eq_ok_iff]
    constructor
    · rintro ⟨id, rfl⟩
      exact id.sixteen
    · exact fun sixteen => ⟨⟨bytes, sixteen⟩, rfl⟩
  · exact (Identifier.ofBytes_eq_ok_iff id.bytes id).mpr rfl

/-- Not only the digits: the name space of a URN is read in letters of either case, too. -/
theorem upperCaseUrn_is_read :
    let id : DatabaseId :=
      ⟨[0x67, 0xe5, 0x50, 0x44, 0x10, 0xb1, 0x42, 0x6f, 0x92, 0x47, 0xbb, 0x68, 0x0e, 0x5f, 0xe0, 0xc8], rfl⟩
    let text := "URN:UUID:67e55044-10b1-426f-9247-bb680e5fe0c8"
    Identifier.parse text = .ok id ∧ ¬∃ layout : IdentifierLayout, layout.SpellsByDigits text id := by
  intro id text
  have spelled : IdentifierLayout.urn.Spells text id := by decide +kernel
  refine ⟨(Identifier.parse_eq_ok_iff text id).mpr ⟨.urn, spelled⟩, ?_⟩
  rintro ⟨layout, digits, lowered, laid⟩
  have count : digits.length = 32 := by
    rw [← List.length_map Char.toLower, lowered, length_hexOfBytes, id.sixteen]
  have width : text.toList.length = layout.width := by rw [laid, layout.length_frame count]
  have whole : text.toList.length = 45 := by decide
  -- Only a URN is as long, and it starts with a small letter.
  have urn : layout = .urn := IdentifierLayout.eq_of_width_eq (width.symm.trans whole)
  subst urn
  have capital : text.toList.head? = some 'U' := by decide
  have small : (IdentifierLayout.urn.frame digits).head? = some 'u' := rfl
  rw [laid, small] at capital
  cases capital

theorem parse_accepts_spellings_mixedCase :
    let id : SegmentId :=
      ⟨[0x67, 0xe5, 0x50, 0x44, 0x10, 0xb1, 0x42, 0x6f, 0x92, 0x47, 0xbb, 0x68, 0x0e, 0x5f, 0xe0, 0xc8], rfl⟩
    let named := "Urn:uUid:67E55044-10b1-426F-9247-bb680E5Fe0c8"
    let bare := "67e5504410B1426f9247bb680e5fE0C8"
    (IdentifierLayout.urn.Spells named id ∧ IdentifierLayout.plain.Spells bare id) ∧
      Identifier.parse named = .ok id ∧ Identifier.parse bare = .ok id := by
  intro id named bare
  have spelled : IdentifierLayout.urn.Spells named id := by decide +kernel
  have bareSpelled : IdentifierLayout.plain.Spells bare id := by decide +kernel
  exact ⟨⟨spelled, bareSpelled⟩,
    (parse_accepts_spellings .segment).2.2.1 .urn .plain named bare id spelled bareSpelled⟩

end MetadataRegistry
