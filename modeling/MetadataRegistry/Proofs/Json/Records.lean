import MetadataRegistry.Proofs.ExchangedTime
import MetadataRegistry.Proofs.Identifiers
import MetadataRegistry.Proofs.Json.Values

/-!
Records and their documents. A record is written as an object of all its fields, so its reader finds every field
once; an optional field is null if it has no value, and no value is written as null. A value is represented by
a document if the reader of its type finds it there.
-/

namespace MetadataRegistry

structure Json.Represents {α : Type} (read : Json → Option α) (document : Json) (value : α) : Prop where
  spelled : document.IsSpelled
  found : read document = some value

def Recovers {α : Type} (write : α → Json) (read : Json → Option α) (value : α) : Prop :=
  (Json.parse? (write value).text).bind read = some value

theorem recovers_of_represents {α : Type} {write : α → Json} {read : Json → Option α} {value : α}
    (represents : (write value).Represents read value) : Recovers write read value := by
  rw [Recovers, parse?_text represents.spelled]
  exact represents.found

@[simp] theorem fields?_ofMembers {names : List String} {members : Fields} (same : members.map (·.1) = names)
    (distinct : names.Nodup) : (Json.ofMembers members).fields? names = some members := by
  have known : members.filter (fun field => names.contains field.1) = members := by
    refine List.filter_eq_self.mpr fun field belongs => ?_
    exact List.contains_iff_mem.mpr (same ▸ List.mem_map_of_mem belongs)
  rw [← same] at distinct
  have named := members?_ofMembers members
  unfold Json.ofMembers at named ⊢
  simp only [Json.fields?, named, Option.bind_eq_bind, Option.bind_some, known, if_pos distinct]

namespace Fields

variable {α : Type} {read : Json → Option α}

@[simp] theorem required_self (fields : Fields) (name : String) (document : Json) :
    required ((name, document) :: fields) name read = read document := by
  simp [required]

@[simp] theorem required_other (fields : Fields) {name other : String} (different : name ≠ other) (document : Json) :
    required ((other, document) :: fields) name read = required fields name read := by
  have unequal : (name == other) = false := beq_eq_false_iff_ne.mpr different
  rw [required, List.lookup_cons, unequal]
  rfl

@[simp] theorem optional_self (fields : Fields) (name : String) {write : α → Json} {value : Option α}
    (refuses : read .null = none) (inverse : ∀ given ∈ value, read (write given) = some given) :
    optional ((name, .ofOption write value) :: fields) name read = some value := by
  cases value with
  | none => simp [optional, Json.ofOption]
  | some given =>
      have found := inverse given rfl
      have present : write given ≠ .null := by
        intro absent
        rw [absent, refuses] at found
        cases found
      simp only [optional, Json.ofOption, List.lookup_cons_self, found, Option.map_some]

@[simp] theorem optional_other (fields : Fields) {name other : String} (different : name ≠ other) (document : Json) :
    optional ((other, document) :: fields) name read = optional fields name read := by
  have unequal : (name == other) = false := beq_eq_false_iff_ne.mpr different
  simp only [optional, List.lookup_cons, unequal]

end Fields

@[simp] theorem isSpelled_ofInt64 (value : Int64) : (Json.ofInt64 value).IsSpelled := isSpelled_ofInteger value.toInt

@[simp] theorem isSpelled_ofUInt32 (value : UInt32) : (Json.ofUInt32 value).IsSpelled :=
  isSpelled_ofInteger value.toNat

@[simp] theorem isSpelled_ofInstant (instant : Instant) : (Json.ofInstant instant).IsSpelled :=
  isSpelled_ofText instant.text

@[simp] theorem isSpelled_ofIdentifier {kind : IdentifierKind} (id : Identifier kind) :
    (Json.ofIdentifier id).IsSpelled := isSpelled_ofText id.text

@[simp] theorem isSpelled_bool (value : Bool) : (Json.bool value).IsSpelled := .bool value

@[simp] theorem isSpelled_ofOption {α : Type} {write : α → Json} {value : Option α}
    (spelled : ∀ given ∈ value, (write given).IsSpelled) : (Json.ofOption write value).IsSpelled := by
  cases value with
  | none => exact .null
  | some given => exact spelled given rfl

theorem integerWithin?_ofInteger {least greatest value : Int} (fits : isInt64 value = true) (fromLeast : least ≤ value)
    (toGreatest : value ≤ greatest) : (Json.ofInteger value).integerWithin? least greatest = some value := by
  simp only [Json.integerWithin?, Json.integer?, number?_ofInteger value fits]
  exact if_pos ⟨fromLeast, toGreatest⟩

@[simp] theorem text?_null : Json.null.text? = none := by simp only [Json.text?]

@[simp] theorem bool?_bool (value : Bool) : (Json.bool value).bool? = some value := rfl

@[simp] theorem int64?_null : Json.null.int64? = none := by
  simp only [Json.int64?, Json.integerWithin?, Json.integer?, Json.number?, Option.map_none]

@[simp] theorem int64?_ofInt64 (value : Int64) : (Json.ofInt64 value).int64? = some value := by
  have fits := isInt64_toInt value
  have bounds : leastInt64 ≤ value.toInt ∧ value.toInt ≤ greatestInt64 := (isInt64_iff value.toInt).mp fits
  rw [Json.int64?, Json.ofInt64, integerWithin?_ofInteger fits bounds.1 bounds.2, Option.map_some, Int64.ofInt_toInt]

@[simp] theorem uint32?_null : Json.null.uint32? = none := by
  simp only [Json.uint32?, Json.integerWithin?, Json.integer?, Json.number?, Option.map_none]

@[simp] theorem uint32?_ofUInt32 (value : UInt32) : (Json.ofUInt32 value).uint32? = some value := by
  have bound : value.toNat < 4294967296 := value.toNat_lt
  have fits : isInt64 value.toNat = true := by
    rw [isInt64_iff]
    omega
  have toGreatest : (value.toNat : Int) ≤ (greatestUInt32 : Nat) := Int.ofNat_le.mpr (Nat.le_of_lt_succ bound)
  rw [Json.uint32?, Json.ofUInt32, integerWithin?_ofInteger fits (Int.natCast_nonneg _) toGreatest, Option.map_some,
    Int.toNat_natCast, UInt32.ofNat_toNat]

@[simp] theorem instant?_null : Json.null.instant? = none := by
  simp only [Json.instant?, text?_null, Option.bind_none]

@[simp] theorem instant?_ofInstant (instant : Instant) : (Json.ofInstant instant).instant? = some instant := by
  rw [Json.instant?, Json.ofInstant, text?_ofText, Option.bind_some, Instant.parse?_text]

@[simp] theorem identifier?_null {kind : IdentifierKind} :
    (Json.null.identifier? : Option (Identifier kind)) = none := by
  simp only [Json.identifier?, text?_null, Option.bind_none]

@[simp] theorem identifier?_ofIdentifier {kind : IdentifierKind} (id : Identifier kind) :
    (Json.ofIdentifier id).identifier? = some id := by
  rw [Json.identifier?, Json.ofIdentifier, text?_ofText, Option.bind_some, Identifier.parse?_text]

@[simp] theorem wordOf?_ofText {α : Type} (read : String → Option α) (word : String) :
    (Json.ofText word).wordOf? read = read word := by
  show (Json.ofText word).text?.bind read = read word
  rw [text?_ofText, Option.bind_some]

end MetadataRegistry
