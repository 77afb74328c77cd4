import MetadataRegistry.Identifier

/-!
The text of an identifier. Its digits are hexadecimal, so the four hyphens between their groups are the only
ones, and reading the text gives the identifier back.
-/

namespace MetadataRegistry

theorem length_hexOfBytes (bytes : List UInt8) : (hexOfBytes bytes).length = 2 * bytes.length := by
  induction bytes with
  | nil => rfl
  | cons byte rest ih =>
      have written : hexOfBytes (byte :: rest) = hexOfByte byte ++ hexOfBytes rest := rfl
      rw [written, List.length_append, ih, List.length_cons]
      show 2 + 2 * rest.length = _
      omega

theorem hexDigit_ne_hyphen : ∀ value, value < 16 → hexDigit value ≠ '-' := by decide

theorem ne_hyphen_of_mem_hexOfBytes (bytes : List UInt8) : ∀ digit ∈ hexOfBytes bytes, digit ≠ '-' := by
  intro digit member
  obtain ⟨byte, _, written⟩ := List.mem_flatMap.mp member
  have bound := byte.toNat_lt
  simp only [hexOfByte, List.mem_cons, List.not_mem_nil, or_false] at written
  rcases written with rfl | rfl
  · exact hexDigit_ne_hyphen _ (by omega)
  · exact hexDigit_ne_hyphen _ (by omega)

theorem length_hyphenate {digits : List Char} (length : digits.length = 32) : (hyphenate digits).length = 36 := by
  simp [hyphenate, length]

theorem unhyphenate_hyphenate {digits : List Char} (length : digits.length = 32)
    (plain : ∀ digit ∈ digits, digit ≠ '-') : unhyphenate (hyphenate digits) = some digits := by
  have kept (part : List Char) (sublist : part.Sublist digits) : part.filter (· != '-') = part := by
    rw [List.filter_eq_self]
    intro digit member
    simpa using plain digit (sublist.subset member)
  have joined : (hyphenate digits).filter (· != '-') = digits := by
    have first := kept _ (List.take_sublist 8 digits)
    have second := kept _ ((List.take_sublist 4 _).trans (List.drop_sublist 8 digits))
    have third := kept _ ((List.take_sublist 4 _).trans (List.drop_sublist 12 digits))
    have fourth := kept _ ((List.take_sublist 4 _).trans (List.drop_sublist 16 digits))
    have last := kept _ (List.drop_sublist 20 digits)
    have hyphen : ('-' != '-') = false := rfl
    simp only [hyphenate, List.cons_append, List.append_assoc, List.filter_append, List.filter_cons, hyphen,
      Bool.false_eq_true, if_false, first, second, third, fourth, last]
    rw [← List.drop_drop (i := 4) (j := 16), List.take_append_drop, ← List.drop_drop (i := 4) (j := 12),
      List.take_append_drop, ← List.drop_drop (i := 4) (j := 8), List.take_append_drop, List.take_append_drop]
  have places : ∀ place ∈ hyphenPlaces, (hyphenate digits)[place]? = some '-' := by
    simp [hyphenPlaces, hyphenate, List.getElem?_append, length]
  simp only [unhyphenate, joined]
  rw [if_pos ⟨length_hyphenate length, length, places⟩]

namespace Identifier

variable {kind : IdentifierKind}

theorem readIdentifierBytes_text (id : Identifier kind) : readIdentifierBytes id.text.toList = some id.bytes := by
  have length : (hexOfBytes id.bytes).length = 32 := by rw [length_hexOfBytes, id.sixteen]
  have notPlain : (hyphenate (hexOfBytes id.bytes)).length ≠ 32 := by
    rw [length_hyphenate length]
    decide
  have grouped := unhyphenate_hyphenate length (ne_hyphen_of_mem_hexOfBytes id.bytes)
  simp only [readIdentifierBytes, text, String.toList_ofList, IdentifierLayout.all, List.findSome?_cons,
    IdentifierLayout.read, IdentifierLayout.digits, if_neg notPlain, grouped, Option.bind_none, Option.bind_some,
    bytesOfHex_hexOfBytes]

theorem parse?_text (id : Identifier kind) : parse? id.text = some id := by
  simp only [parse?, parse, readIdentifierBytes_text, dif_pos id.sixteen]
  rfl

end Identifier

end MetadataRegistry
