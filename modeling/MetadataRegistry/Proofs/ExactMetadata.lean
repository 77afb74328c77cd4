import MetadataRegistry.Proofs.Metadata

/-!
Metadata that is written without loss. The reader of numbers rounds more than once and can end beside the number
that was written; a number is exact if it does not, and a map is exact if all its numbers are. An exact map is
read back from its document as the same map, every value of the type it had.
-/

namespace MetadataRegistry

def Binary64.IsExact (value : Binary64) : Prop :=
  value.isFinite = true ∧ (Json.number value.render).number? = some (.real value)

instance : DecidablePred Binary64.IsExact := fun _ => inferInstanceAs (Decidable (_ ∧ _))

def MetadataValue.IsExact : MetadataValue → Prop
  | .real value => value.IsExact
  | .bool _ | .integer _ | .text _ => True

instance : DecidablePred MetadataValue.IsExact
  | .real value => inferInstanceAs (Decidable value.IsExact)
  | .bool _ | .integer _ | .text _ => .isTrue trivial

def Metadata.IsExact (metadata : Metadata) : Prop := ∀ entry ∈ metadata.entries, entry.2.IsExact

instance : DecidablePred Metadata.IsExact :=
  fun metadata => inferInstanceAs (Decidable (∀ entry ∈ metadata.entries, _))

theorem isFinite_of_isExact {metadata : Metadata} (exact : metadata.IsExact) : metadata.IsFinite := by
  intro entry belongs
  have exactValue := exact entry belongs
  cases same : entry.2 with
  | real value =>
      rw [same] at exactValue
      exact exactValue.1
  | bool | integer | text => rfl

theorem ofJson?_toJson_value {value : MetadataValue} (exact : value.IsExact) :
    MetadataValue.ofJson? value.toJson = some value := by
  cases value with
  | bool value => rfl
  | integer value =>
      show (Json.ofInt64 value).number?.map MetadataValue.ofNumber = _
      rw [number?_ofInt64, Option.map_some, MetadataValue.ofNumber, if_pos (isInt64_toInt value), Int64.ofInt_toInt]
  | real value =>
      obtain ⟨finite, back⟩ := exact
      rw [MetadataValue.toJson, Json.ofReal, if_pos finite, MetadataValue.ofJson?, back]
      rfl
  | text value =>
      show (Json.ofText value).text?.map MetadataValue.text = _
      rw [text?_ofText]
      rfl

theorem ofJson?_toJson_metadata {metadata : Metadata} (exact : metadata.IsExact) :
    Metadata.ofJson? (Metadata.toJson metadata) = some metadata :=
  dictionaryOf?_ofDictionary metadata fun entry belongs => ofJson?_toJson_value (exact entry belongs)

end MetadataRegistry
