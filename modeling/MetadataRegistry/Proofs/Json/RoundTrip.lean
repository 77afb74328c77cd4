import MetadataRegistry.Json.Printer
import MetadataRegistry.Proofs.Json.Spelling

/-!
Documents and their text. The reader gives back every document that was printed, provided its leaves
are spelled in a way that it takes, and it gives no other documents.
-/

namespace MetadataRegistry

/-- A document whose strings, labels and numbers are spelled in a way that the reader takes. -/
inductive Json.IsSpelled : Json → Prop
  | null : IsSpelled .null
  | bool (value) : IsSpelled (.bool value)
  | number {literal} : isNumberLiteral literal = true → IsSpelled (.number literal)
  | string {body} : IsBody body → IsSpelled (.string body)
  | array {items} : (∀ item ∈ items, IsSpelled item) → IsSpelled (.array items)
  | object {members} : (∀ member ∈ members, IsBody member.1) → (∀ member ∈ members, IsSpelled member.2) →
      IsSpelled (.object members)

def StartsDocument (character : Char) : Prop :=
  isJsonBlank character = false ∧ character ≠ ']' ∧ character ≠ '}'

theorem startsDocument_of_isDigit {character : Char} (digit : character.isDigit = true) :
    StartsDocument character := by
  refine ⟨?_, ?_, ?_⟩
  · cases blank : isJsonBlank character with
    | false => rfl
    | true =>
        simp only [isJsonBlank, Bool.or_eq_true, beq_iff_eq] at blank
        rcases blank with ((rfl | rfl) | rfl) | rfl <;> exact absurd digit (by decide)
  · rintro rfl
    exact absurd digit (by decide)
  · rintro rfl
    exact absurd digit (by decide)

theorem render_head {document : Json} (spelled : document.IsSpelled) :
    ∃ first rest, document.render = first :: rest ∧ StartsDocument first := by
  cases spelled with
  | null => exact ⟨'n', _, rfl, by decide, by decide, by decide⟩
  | bool value =>
      cases value with
      | true => exact ⟨'t', _, rfl, by decide, by decide, by decide⟩
      | false => exact ⟨'f', _, rfl, by decide, by decide, by decide⟩
  | @number literal valid =>
      obtain ⟨first, rest, same, start⟩ := head_of_isNumberLiteral valid
      refine ⟨first, rest, by rw [Json.render, same], ?_⟩
      rcases start with rfl | digit
      · exact ⟨by decide, by decide, by decide⟩
      · exact startsDocument_of_isDigit digit
  | string _ => exact ⟨'"', _, rfl, by decide, by decide, by decide⟩
  | @array items _ =>
      cases items with
      | nil => exact ⟨'[', _, rfl, by decide, by decide, by decide⟩
      | cons item items => exact ⟨'[', _, rfl, by decide, by decide, by decide⟩
  | @object members _ _ =>
      cases members with
      | nil => exact ⟨'{', _, rfl, by decide, by decide, by decide⟩
      | cons member members => exact ⟨'{', _, rfl, by decide, by decide, by decide⟩

theorem skipJsonBlanks_cons {first : Char} (rest : List Char) (visible : isJsonBlank first = false) :
    skipJsonBlanks (first :: rest) = first :: rest := by
  simp [skipJsonBlanks, visible]

theorem skipJsonBlanks_render {document : Json} (spelled : document.IsSpelled) (rest : List Char) :
    skipJsonBlanks (document.render ++ rest) = document.render ++ rest := by
  obtain ⟨first, tail, same, start⟩ := render_head spelled
  rw [same, List.cons_append, skipJsonBlanks_cons _ start.1]

theorem render_length_pos {document : Json} (spelled : document.IsSpelled) : 0 < document.render.length := by
  obtain ⟨first, tail, same, _⟩ := render_head spelled
  simp [same]

/-- Enough fuel reads a document back from the front of a text that does not go on with a number. -/
def ReadsBack (document : Json) : Prop :=
  ∀ fuel rest, document.render.length ≤ fuel → EndsNumber rest →
    readDocument fuel (document.render ++ rest) = some (document, rest)

theorem endsNumber_cons {first : Char} {rest : List Char} (stops : isNumberCharacter first = false) :
    EndsNumber (first :: rest) := by
  intro character member
  simp only [List.head?_cons, Option.mem_def, Option.some.injEq] at member
  rw [← member]
  exact stops

theorem endsNumber_renderItems (items : List Json) (rest : List Char) :
    EndsNumber (renderItems items ++ rest) := by
  cases items with
  | nil => exact endsNumber_cons (by decide)
  | cons item items => exact endsNumber_cons (by decide)

theorem endsNumber_renderMembers (members : List (List Char × Json)) (rest : List Char) :
    EndsNumber (renderMembers members ++ rest) := by
  cases members with
  | nil => exact endsNumber_cons (by decide)
  | cons member members => exact endsNumber_cons (by decide)

theorem skipJsonBlanks_renderItems (items : List Json) (rest : List Char) :
    skipJsonBlanks (renderItems items ++ rest) = renderItems items ++ rest := by
  cases items with
  | nil => exact skipJsonBlanks_cons _ (by decide)
  | cons item items => exact skipJsonBlanks_cons _ (by decide)

theorem skipJsonBlanks_renderMembers (members : List (List Char × Json)) (rest : List Char) :
    skipJsonBlanks (renderMembers members ++ rest) = renderMembers members ++ rest := by
  cases members with
  | nil => exact skipJsonBlanks_cons _ (by decide)
  | cons member members => exact skipJsonBlanks_cons _ (by decide)

theorem readsBack_number {literal : List Char} (valid : isNumberLiteral literal = true) :
    ReadsBack (.number literal) := by
  intro fuel rest enough ends
  obtain ⟨first, tail, same, start⟩ := head_of_isNumberLiteral valid
  have read := readNumberLiteral_append valid ends
  cases fuel with
  | zero => simp [Json.render, same] at enough
  | succ fuel =>
      have notWord : first ≠ 'n' ∧ first ≠ 't' ∧ first ≠ 'f' ∧ first ≠ '"' ∧ first ≠ '[' ∧ first ≠ '{' := by
        refine ⟨?_, ?_, ?_, ?_, ?_, ?_⟩ <;> rintro rfl <;> rcases start with start | start <;>
          exact absurd start (by decide)
      rw [Json.render, readDocument.eq_def]
      rw [same, List.cons_append] at read ⊢
      simp only
      split <;> simp_all

theorem readItems_renderItems : ∀ (items : List Json), (∀ item ∈ items, item.IsSpelled) →
    (∀ item ∈ items, ReadsBack item) → ∀ fuel rest, (renderItems items).length ≤ fuel →
      readItems fuel (renderItems items ++ rest) = some (items, rest) := by
  intro items
  induction items with
  | nil =>
      intro _ _ fuel rest enough
      cases fuel with
      | zero => simp [renderItems] at enough
      | succ fuel => simp [renderItems, readItems]
  | cons item items ih =>
      intro spelled readsBack fuel rest enough
      cases fuel with
      | zero => simp [renderItems] at enough
      | succ fuel =>
          simp only [renderItems, List.cons_append, List.length_cons, List.length_append] at enough
          have first := readsBack item (by simp) fuel (renderItems items ++ rest) (by omega)
            (endsNumber_renderItems items rest)
          have later := ih (fun other member => spelled other (by simp [member]))
            (fun other member => readsBack other (by simp [member])) fuel rest (by omega)
          simp only [renderItems, List.cons_append, List.append_assoc, readItems,
            skipJsonBlanks_render (spelled item (by simp)), first, skipJsonBlanks_renderItems, later,
            Option.bind_eq_bind, Option.bind_some, Option.pure_def]

theorem readMember_render {label : List Char} {value : Json} (body : IsBody label) (spelled : value.IsSpelled)
    (readsBack : ReadsBack value) (fuel : Nat) (rest : List Char) (enough : value.render.length < fuel)
    (ends : EndsNumber rest) :
    readMember fuel (quoted label ++ ':' :: (value.render ++ rest)) = some ((label, value), rest) := by
  cases fuel with
  | zero => omega
  | succ fuel =>
      have read := readsBack fuel rest (by omega) ends
      simp only [quoted, List.cons_append, List.append_assoc, List.nil_append, readMember,
        readBody_append body, Option.bind_eq_bind, Option.bind_some]
      rw [skipJsonBlanks_cons _ (by decide)]
      simp only [skipJsonBlanks_render spelled, read, Option.bind_some, Option.pure_def]

theorem skipJsonBlanks_quoted (label rest : List Char) :
    skipJsonBlanks (quoted label ++ rest) = quoted label ++ rest :=
  skipJsonBlanks_cons _ (by decide)

theorem readMembers_renderMembers : ∀ (members : List (List Char × Json)),
    (∀ member ∈ members, IsBody member.1) → (∀ member ∈ members, member.2.IsSpelled) →
    (∀ member ∈ members, ReadsBack member.2) → ∀ fuel rest, (renderMembers members).length ≤ fuel →
      readMembers fuel (renderMembers members ++ rest) = some (members, rest) := by
  intro members
  induction members with
  | nil =>
      intro _ _ _ fuel rest enough
      cases fuel with
      | zero => simp [renderMembers] at enough
      | succ fuel => simp [renderMembers, readMembers]
  | cons member members ih =>
      intro bodies spelled readsBack fuel rest enough
      cases fuel with
      | zero => simp [renderMembers] at enough
      | succ fuel =>
          simp only [renderMembers, List.cons_append, List.length_cons, List.length_append] at enough
          have first := readMember_render (bodies member (by simp)) (spelled member (by simp))
            (readsBack member (by simp)) fuel (renderMembers members ++ rest) (by omega)
            (endsNumber_renderMembers members rest)
          have later := ih (fun other belongs => bodies other (by simp [belongs]))
            (fun other belongs => spelled other (by simp [belongs]))
            (fun other belongs => readsBack other (by simp [belongs])) fuel rest (by omega)
          simp only [renderMembers, List.cons_append, List.append_assoc, readMembers,
            skipJsonBlanks_quoted, first, skipJsonBlanks_renderMembers, later,
            Option.bind_eq_bind, Option.bind_some, Option.pure_def]

theorem readsBack_array {items : List Json} (spelled : ∀ item ∈ items, item.IsSpelled)
    (readsBack : ∀ item ∈ items, ReadsBack item) : ReadsBack (.array items) := by
  intro fuel rest enough _
  cases fuel with
  | zero => exact absurd enough (Nat.not_le.mpr (render_length_pos (.array spelled)))
  | succ fuel =>
      cases items with
      | nil => simp [Json.render, readDocument, skipJsonBlanks_cons _ (show isJsonBlank ']' = false by decide)]
      | cons item items =>
          simp only [Json.render, List.cons_append, List.length_cons, List.length_append] at enough
          have first := readsBack item (by simp) fuel (renderItems items ++ rest) (by omega)
            (endsNumber_renderItems items rest)
          have later := readItems_renderItems items (fun other member => spelled other (by simp [member]))
            (fun other member => readsBack other (by simp [member])) fuel rest (by omega)
          obtain ⟨head, tail, same, start⟩ := render_head (spelled item (by simp))
          simp only [Json.render, List.cons_append, List.append_assoc, readDocument,
            skipJsonBlanks_render (spelled item (by simp))]
          rw [same] at first ⊢
          simp only [List.cons_append] at first ⊢
          split
          · rename_i closing
            exact absurd (List.cons.inj closing).1 start.2.1
          · simp only [first, skipJsonBlanks_renderItems, later, Option.bind_eq_bind, Option.bind_some,
              Option.pure_def]

theorem readsBack_object {members : List (List Char × Json)} (bodies : ∀ member ∈ members, IsBody member.1)
    (spelled : ∀ member ∈ members, member.2.IsSpelled) (readsBack : ∀ member ∈ members, ReadsBack member.2) :
    ReadsBack (.object members) := by
  intro fuel rest enough _
  cases fuel with
  | zero => exact absurd enough (Nat.not_le.mpr (render_length_pos (.object bodies spelled)))
  | succ fuel =>
      cases members with
      | nil => simp [Json.render, readDocument, skipJsonBlanks_cons _ (show isJsonBlank '}' = false by decide)]
      | cons member members =>
          simp only [Json.render, List.cons_append, List.length_cons, List.length_append] at enough
          have first := readMember_render (bodies member (by simp)) (spelled member (by simp))
            (readsBack member (by simp)) fuel (renderMembers members ++ rest) (by omega)
            (endsNumber_renderMembers members rest)
          have later := readMembers_renderMembers members (fun other belongs => bodies other (by simp [belongs]))
            (fun other belongs => spelled other (by simp [belongs]))
            (fun other belongs => readsBack other (by simp [belongs])) fuel rest (by omega)
          simp only [Json.render, List.cons_append, List.append_assoc, readDocument, skipJsonBlanks_quoted]
          split
          · rename_i closing
            simp [quoted] at closing
          · simp only [first, skipJsonBlanks_renderMembers, later, Option.bind_eq_bind, Option.bind_some,
              Option.pure_def]

theorem readsBack_of_isSpelled {document : Json} (spelled : document.IsSpelled) : ReadsBack document := by
  induction spelled with
  | null =>
      intro fuel rest enough _
      cases fuel with
      | zero => simp [Json.render] at enough
      | succ fuel => simp [Json.render, readDocument]
  | bool value =>
      intro fuel rest enough _
      cases fuel with
      | zero => cases value <;> simp [Json.render] at enough
      | succ fuel => cases value <;> simp [Json.render, readDocument]
  | number valid => exact readsBack_number valid
  | string body =>
      intro fuel rest enough _
      cases fuel with
      | zero => simp [Json.render, quoted] at enough
      | succ fuel => simp [Json.render, quoted, readDocument, readBody_append body]
  | array spelled ih => exact readsBack_array spelled ih
  | object bodies spelled ih => exact readsBack_object bodies spelled ih

theorem parse?_text {document : Json} (spelled : document.IsSpelled) :
    Json.parse? document.text = some document := by
  have read := readsBack_of_isSpelled spelled (document.render.length + 1) [] (by omega)
    (by intro character member; simp at member)
  have skipped := skipJsonBlanks_render spelled []
  rw [List.append_nil] at read skipped
  simp only [Json.parse?, Json.text, readJson, String.toList_ofList, skipped, read]
  rfl

/-! What is read is spelled as it should be. -/

theorem isSpelled_of_readNumberLiteral {text rest : List Char} {document : Json}
    (found : readNumberLiteral text = some (document, rest)) : document.IsSpelled := by
  unfold readNumberLiteral at found
  simp only at found
  split at found
  · rename_i valid
    simp only [Option.some.injEq, Prod.mk.injEq] at found
    rw [← found.1]
    exact .number valid
  · simp at found

structure ReadsSpelled (fuel : Nat) : Prop where
  document : ∀ text value rest, readDocument fuel text = some (value, rest) → value.IsSpelled
  items : ∀ text values rest, readItems fuel text = some (values, rest) → ∀ value ∈ values, value.IsSpelled
  member : ∀ text found rest, readMember fuel text = some (found, rest) → IsBody found.1 ∧ found.2.IsSpelled
  members : ∀ text found rest, readMembers fuel text = some (found, rest) →
    ∀ member ∈ found, IsBody member.1 ∧ member.2.IsSpelled

theorem isSpelled_of_readDocument {fuel : Nat} (before : ReadsSpelled fuel) (text : List Char) (value : Json)
    (rest : List Char) (found : readDocument (fuel + 1) text = some (value, rest)) : value.IsSpelled := by
  rw [readDocument.eq_def] at found
  simp only at found
  split at found
  · cases found
    exact .null
  · cases found
    exact .bool true
  · cases found
    exact .bool false
  · obtain ⟨⟨body, after⟩, read, same⟩ := Option.map_eq_some_iff.mp found
    cases same
    exact .string (isBody_of_readBody _ _ _ read)
  · split at found
    · cases found
      exact .array (by simp)
    · simp only [Option.bind_eq_bind, Option.bind_eq_some_iff] at found
      obtain ⟨⟨item, afterItem⟩, first, ⟨items, after⟩, later, same⟩ := found
      cases same
      refine .array (fun other belongs => ?_)
      rcases List.mem_cons.mp belongs with rfl | belongs
      · exact before.document _ _ _ first
      · exact before.items _ _ _ later other belongs
  · split at found
    · cases found
      exact .object (by simp) (by simp)
    · simp only [Option.bind_eq_bind, Option.bind_eq_some_iff] at found
      obtain ⟨⟨member, afterMember⟩, first, ⟨others, after⟩, later, same⟩ := found
      cases same
      have all : ∀ other ∈ member :: others, IsBody other.1 ∧ other.2.IsSpelled := by
        intro other belongs
        rcases List.mem_cons.mp belongs with rfl | belongs
        · exact before.member _ _ _ first
        · exact before.members _ _ _ later other belongs
      exact .object (fun other belongs => (all other belongs).1) (fun other belongs => (all other belongs).2)
  · exact isSpelled_of_readNumberLiteral found

theorem isSpelled_of_readItems {fuel : Nat} (before : ReadsSpelled fuel) (text : List Char) (values : List Json)
    (rest : List Char) (found : readItems (fuel + 1) text = some (values, rest)) :
    ∀ value ∈ values, value.IsSpelled := by
  rw [readItems.eq_def] at found
  simp only at found
  split at found
  · cases found
    simp
  · simp only [Option.bind_eq_bind, Option.bind_eq_some_iff] at found
    obtain ⟨⟨item, afterItem⟩, first, ⟨others, after⟩, later, same⟩ := found
    cases same
    intro other belongs
    rcases List.mem_cons.mp belongs with rfl | belongs
    · exact before.document _ _ _ first
    · exact before.items _ _ _ later other belongs
  · simp at found

theorem isSpelled_of_readMember {fuel : Nat} (before : ReadsSpelled fuel) (text : List Char)
    (member : List Char × Json) (rest : List Char) (found : readMember (fuel + 1) text = some (member, rest)) :
    IsBody member.1 ∧ member.2.IsSpelled := by
  rw [readMember.eq_def] at found
  simp only at found
  split at found
  · simp only [Option.bind_eq_bind, Option.bind_eq_some_iff] at found
    obtain ⟨⟨label, afterLabel⟩, body, found⟩ := found
    simp only at found
    split at found
    · simp only [Option.bind_eq_some_iff] at found
      obtain ⟨⟨value, after⟩, read, same⟩ := found
      cases same
      exact ⟨isBody_of_readBody _ _ _ body, before.document _ _ _ read⟩
    · simp at found
  · simp at found

theorem isSpelled_of_readMembers {fuel : Nat} (before : ReadsSpelled fuel) (text : List Char)
    (members : List (List Char × Json)) (rest : List Char)
    (found : readMembers (fuel + 1) text = some (members, rest)) :
    ∀ member ∈ members, IsBody member.1 ∧ member.2.IsSpelled := by
  rw [readMembers.eq_def] at found
  simp only at found
  split at found
  · cases found
    simp
  · simp only [Option.bind_eq_bind, Option.bind_eq_some_iff] at found
    obtain ⟨⟨member, afterMember⟩, first, ⟨later, after⟩, read, same⟩ := found
    cases same
    intro other belongs
    rcases List.mem_cons.mp belongs with rfl | belongs
    · exact before.member _ _ _ first
    · exact before.members _ _ _ read other belongs
  · simp at found

theorem readsSpelled (fuel : Nat) : ReadsSpelled fuel := by
  induction fuel with
  | zero => constructor <;> intros <;> simp_all [readDocument, readItems, readMember, readMembers]
  | succ fuel ih =>
      exact ⟨isSpelled_of_readDocument ih, isSpelled_of_readItems ih, isSpelled_of_readMember ih,
        isSpelled_of_readMembers ih⟩

theorem isSpelled_of_parse? {text : String} {document : Json} (found : Json.parse? text = some document) :
    document.IsSpelled := by
  unfold Json.parse? readJson at found
  split at found
  · rename_i whole rest read
    split at found
    · cases found
      exact (readsSpelled _).document _ _ _ read
    · simp at found
  · simp at found

end MetadataRegistry
