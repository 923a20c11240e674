import EntityMapping.Proofs.Dressing
import EntityMapping.Proofs.Gathering

/-!
Relationships within a registry. Where every reference stays within the registry, what a schema
amounts to refers within it as well, and every relationship leads to an entity of the registry that
is no mere reference to another one and amounts to type `object`.
-/

set_option autoImplicit false
set_option relaxedAutoImplicit false

namespace EntityMapping

namespace Json

variable {fields : Keyed Json} {key keyword : String} {value : Json}

theorem refersLocally_obj (fields : Keyed Json) : (Json.obj fields).refersLocally = true ↔
    ∀ field ∈ fields, fieldRefersLocally field.1 field.2 = true :=
  fieldsReferLocally_iff fields

theorem refersLocally_of_field (inField : fieldRefersLocally key value = true) :
    value.refersLocally = true := by
  cases value <;> simp_all [fieldRefersLocally, refersLocally]

theorem fieldRefersLocally_obj (key : String) (fields : Keyed Json) :
    fieldRefersLocally key (.obj fields) = (Json.obj fields).refersLocally := by
  rw [fieldRefersLocally, refersLocally]

theorem refersLocally_set (object : (Json.obj fields).refersLocally = true)
    (inField : fieldRefersLocally key value = true) :
    (Json.obj (Keyed.set fields key value)).refersLocally = true := by
  rw [refersLocally_obj] at object ⊢
  intro field member
  rcases Keyed.mem_of_mem_set member with rfl | before
  · exact inField
  · exact object field before

theorem refersLocally_setAll {additions : Keyed Json} (object : (Json.obj fields).refersLocally = true)
    (later : (Json.obj additions).refersLocally = true) :
    (Json.obj (Keyed.setAll fields additions)).refersLocally = true := by
  induction additions generalizing fields with
  | nil => exact object
  | cons field rest ih =>
    rw [refersLocally_obj] at later
    refine ih (refersLocally_set object (later field List.mem_cons_self)) ?_
    exact (refersLocally_obj rest).mpr fun other member => later other (.tail _ member)

theorem fieldRefersLocally_joinValues {existing : Option Json}
    (before : ∀ old, existing = some old → fieldRefersLocally keyword old = true)
    (later : fieldRefersLocally keyword value = true) :
    fieldRefersLocally keyword (joinValues keyword existing value) = true := by
  unfold joinValues
  split
  · rename_i old new _
    have objects := before _ rfl
    rw [fieldRefersLocally_obj] at objects later ⊢
    exact refersLocally_setAll objects later
  · rename_i old new _
    have lists := before _ rfl
    rw [fieldRefersLocally_arr, itemsReferLocally_iff] at lists later ⊢
    intro item member
    exact (mem_of_mem_joinItems member).elim (lists item) (later item)
  · exact later

theorem refersLocally_layOver {laid fragment : Keyed Json}
    (below : (Json.obj laid).refersLocally = true)
    (above : (Json.obj fragment).refersLocally = true) :
    (Json.obj (layOver laid fragment)).refersLocally = true := by
  induction fragment generalizing laid with
  | nil => exact below
  | cons field rest ih =>
    rw [refersLocally_obj] at above
    refine ih (refersLocally_set below (fieldRefersLocally_joinValues ?_ ?_)) ?_
    · intro old found
      exact (refersLocally_obj laid).mp below _ (Keyed.mem_of_get? found)
    · exact above field List.mem_cons_self
    · exact (refersLocally_obj rest).mpr fun other member => above other (.tail _ member)

theorem refersLocally_mergeFragments {fragments : List (Keyed Json)}
    (each : ∀ fragment ∈ fragments, (Json.obj fragment).refersLocally = true) :
    (Json.obj (mergeFragments fragments)).refersLocally = true := by
  induction fragments using List.reverseRecOn with
  | nil => rfl
  | append_singleton before last ih =>
    rw [mergeFragments_append]
    exact refersLocally_layOver (ih fun other member => each other (by simp [member]))
      (each last (by simp))

theorem refersLocally_without (object : (Json.obj fields).refersLocally = true) (key : String) :
    (Json.obj (Keyed.without fields key)).refersLocally = true :=
  (refersLocally_obj _).mpr fun field member =>
    (refersLocally_obj fields).mp object field (List.mem_of_mem_filter member)

theorem refersLocally_of_get? (object : (Json.obj fields).refersLocally = true)
    (found : Keyed.get? fields key = some value) : value.refersLocally = true :=
  refersLocally_of_field ((refersLocally_obj fields).mp object _ (Keyed.mem_of_get? found))

end Json

namespace Registry

variable {registry : Registry} {skip : Option String} {schema : Json} {hops : Nat}
  {visited : List String} {name keyword property text : String}

/-- What a schema amounts to stays within the registry as the schema does. -/
theorem RefersLocally.of_derives (references : registry.RefersLocally) {flat : Keyed Json}
    (derivation : registry.Derives skip schema flat) (inSchema : schema.refersLocally = true) :
    (Json.obj flat).refersLocally = true := by
  induction derivation with
  | plain => exact inSchema
  | skipped => rfl
  | reference reference parse _ led _ ih =>
    exact ih (references.of_composes (.reference reference parse led (.self _)) inSchema)
  | @fragments own items flats noReference written sameLength _ ih =>
    have listed := fieldRefersLocally_of_get? inSchema written
    rw [Json.fieldRefersLocally_arr, Json.itemsReferLocally_iff] at listed
    refine Json.refersLocally_mergeFragments fun fragment member => ?_
    rcases List.mem_append.mp member with inFlats | beside
    · obtain ⟨item, inItems, holds⟩ :=
        exists_of_forall₂_right (List.forall₂_iff_zip.mpr ⟨sameLength, ih _ _⟩) inFlats
      exact holds (listed item inItems)
    · rw [eq_of_mem_siblings beside]
      exact Json.refersLocally_without inSchema _

theorem get?_of_presentValue? {own : Keyed Json} {value : Json}
    (present : presentValue? own keyword = some value) : Keyed.get? own keyword = some value :=
  (Option.filter_eq_some_iff.mp present).1

/-- The effective value of a keyword is written on a part of the schema. -/
theorem composes_of_effectiveFrom {top value : Json} (parts : registry.Composes top schema)
    (found : registry.effectiveFrom skip keyword hops visited schema = .ok (some value)) :
    ∃ part, registry.Composes top (.obj part) ∧ presentValue? part keyword = some value := by
  have beside : ∀ {own present}, registry.Composes top (.obj own) →
      presentValue? own keyword = some present →
      (Except.ok (some present) : Except SchemaError (Option Json)) = .ok (some value) →
      ∃ part, registry.Composes top (.obj part) ∧ presentValue? part keyword = some value := by
    intro own present parts isPresent same
    obtain rfl := Option.some.inj (Except.ok.inj same)
    exact ⟨own, parts, isPresent⟩
  induction hops, schema using Json.byFollowing generalizing visited with
  | notObject hops schema notObject =>
    rw [effectiveFrom_notObject notObject] at found
    cases found
  | plain hops own noReference noFragments =>
    rw [effectiveFrom_plain noReference noFragments] at found
    exact ⟨own, parts, Except.ok.inj found⟩
  | reference hops own target reference shorter =>
    rw [effectiveFrom_reference reference] at found
    split at found
    · rename_i isPresent
      exact beside parts isPresent found
    obtain ⟨led, stepped, rest⟩ := bind_eq_ok.mp found
    cases led with
    | none => cases rest
    | some led =>
      obtain ⟨text, next, schema, onChain⟩ := led
      obtain ⟨rfl, parsed, parse, -, arrived⟩ := step_eq_some stepped
      obtain ⟨-, led, -⟩ := arrive_eq_ok.mp arrived
      cases hops with
      | zero => cases rest
      | succ fewer =>
        exact shorter fewer (by omega)
          (parts.trans (.reference reference parse led (.self _))) rest
  | malformed hops own value noReference written noList =>
    rw [effectiveFrom_malformed noReference written noList] at found
    split at found
    · rename_i isPresent
      exact beside parts isPresent found
    · cases found
  | fragments hops own items noReference written ih =>
    rw [effectiveFrom_fragments noReference written] at found
    split at found
    · rename_i isPresent
      exact beside parts isPresent found
    obtain ⟨item, member, foundItem⟩ := exists_of_findSomeM? found
    exact ih item member (parts.trans (.fragment noReference written member (.self item))) foundItem

theorem RefersLocally.of_effective? (references : registry.RefersLocally) {value : Json}
    (inSchema : schema.refersLocally = true)
    (found : registry.effective? schema keyword = .ok (some value)) :
    value.refersLocally = true := by
  obtain ⟨part, parts, present⟩ := composes_of_effectiveFrom (.self schema) found
  exact Json.refersLocally_of_get? (references.of_composes parts inSchema)
    (get?_of_presentValue? present)

/-- The name under which a schema is flattened is the one that it is asked for, or an entity that
is no mere reference and amounts to the same. -/
theorem registered_of_flattenFrom {flat : FlatSchema} (references : registry.ComposedLocally schema)
    (flattened : registry.flattenFrom none hops visited name schema = .ok flat) :
    (schema.get? "$ref" = none ∧ flat.name = name) ∨
      ∃ target, registry.get? flat.name = some target ∧ target.get? "$ref" = none ∧
        registry.Derives none target flat.fields := by
  induction hops using Nat.strongRecOn generalizing visited name schema with
  | ind hops shorter =>
  cases isReference : schema.get? "$ref" with
  | none => exact .inl ⟨rfl, name_of_flattenFrom isReference flattened⟩
  | some target =>
    obtain ⟨own, rfl⟩ : ∃ own, schema = .obj own := by
      cases schema <;> simp_all [Json.get?, Json.fields?]
    have reference : Keyed.get? own "$ref" = some target := isReference
    rw [flattenFrom_reference reference] at flattened
    obtain ⟨text, parsed, rfl, parse, ⟨skipping, -⟩ | followed⟩ := flattenTarget_eq_ok flattened
    · cases skipping
    obtain ⟨-, -, next, schema, fewer, rfl, led, rest⟩ := followed
    obtain ⟨entity, rfl⟩ := references text (.self reference) parsed parse
    obtain ⟨rfl, registered⟩ := target_entity_eq_ok.mp led
    have inTarget := references.of_reference reference parse led
    rcases shorter fewer (by omega) inTarget rest with ⟨noReference, sameName⟩ | found
    · rw [sameName]
      exact .inr ⟨schema, registered, noReference, derives_of_flattenFrom rest⟩
    · exact .inr found

/-- An entity that is no mere reference to another one and amounts to type `object`. -/
def IsObjectEntity (registry : Registry) (name : String) : Prop :=
  ∃ schema flat, registry.get? name = some schema ∧ schema.get? "$ref" = none ∧
    registry.Derives none schema flat ∧ Keyed.get? flat "type" = some (.str "object")

end Registry

namespace Relationship

variable {property keyword : String} {fields collected : Keyed Json} {schema value : Json}

/-- Every keyword that is collected is written on the property or on one of its fragments. -/
theorem written_of_collect (found : collect property (.obj fields) = .ok collected)
    (kept : Keyed.get? collected keyword = some value) :
    ∃ items fragment, fragments property fields = .ok items ∧ Json.obj fragment ∈ items ∧
      Keyed.get? fragment keyword = some value := by
  obtain ⟨items, foundItems, found⟩ := bind_eq_ok.mp found
  obtain ⟨joined, folded, found⟩ := bind_eq_ok.mp found
  obtain ⟨-, -, found⟩ := bind_eq_ok.mp found
  obtain rfl := Except.ok.inj found
  let fromItems : Keyed Json → Prop := fun joined => ∀ value,
    Keyed.get? joined keyword = some value →
      ∃ fragment, Json.obj fragment ∈ items ∧ Keyed.get? fragment keyword = some value
  have initial : fromItems [] := fun value none => by simp at none
  have withKeyword : ∀ fragment : Keyed Json, Json.obj fragment ∈ items → ∀ before after, ∀ rule ∈ rules,
      fromItems before → collectKeyword property fragment before rule = .ok after →
        fromItems after := by
    intro fragment member before after rule _ earlier one value present
    unfold collectKeyword at one
    split at one
    · exact earlier value (Except.ok.inj one ▸ present)
    · rename_i written isWritten
      split at one
      · cases one
      · obtain rfl := Except.ok.inj one
        rw [Keyed.get?_set] at present
        split at present
        · rename_i same
          obtain rfl := Option.some.inj present
          exact ⟨fragment, member, same ▸ Registry.get?_of_presentValue? isWritten⟩
        · exact earlier value present
  have withFragment : ∀ before after, ∀ item ∈ items, fromItems before →
      collectFragment property before item = .ok after → fromItems after := by
    intro before after item member earlier collected
    cases item with
    | obj fragment => exact foldlM_eq_ok_induction (withKeyword fragment member) earlier collected
    | _ => cases collected
  have collectedFrom : fromItems joined := foldlM_eq_ok_induction withFragment initial folded
  obtain ⟨fragment, member, written⟩ := collectedFrom value kept
  exact ⟨items, fragment, foundItems, member, written⟩

theorem refersLocally_of_fragments {items : List Json} {item : Json}
    (found : fragments property fields = .ok items) (member : item ∈ items)
    (inProperty : (Json.obj fields).refersLocally = true) : item.refersLocally = true := by
  unfold fragments at found
  split at found
  · obtain rfl := Except.ok.inj found
    rw [List.mem_singleton.mp member]
    exact inProperty
  · rename_i listed _ written
    obtain rfl := Except.ok.inj found
    have inList := Registry.fieldRefersLocally_of_get? inProperty written
    rw [Json.fieldRefersLocally_arr, Json.itemsReferLocally_iff] at inList
    rcases List.mem_append.mp member with inFragments | last
    · exact inList item inFragments
    · rw [List.mem_singleton.mp last]
      exact inProperty
  · cases found
  · cases found

end Relationship

namespace Registry

variable {registry : Registry} {schema : Json} {property : String} {relationship : Relationship}

/-- A relationship leads to an entity of the registry. -/
theorem RefersLocally.of_gathers {referring : Json} {collected : Keyed Json} {text : String}
    {flat : FlatSchema} (references : registry.RefersLocally)
    (inReferring : referring.refersLocally = true)
    (gathers : registry.Gathers property referring relationship collected text flat) :
    registry.IsObjectEntity relationship.modelName := by
  have isLocal : Reference.isLocal text = true := by
    have written := gathers.written
    cases referring with
    | obj fields =>
      obtain ⟨items, fragment, isFragments, member, reference⟩ :=
        Relationship.written_of_collect written gathers.reference
      exact isLocal_of_get? (Relationship.refersLocally_of_fragments isFragments member inReferring)
        reference
    | _ => cases written
  have inReference : (Json.obj [("$ref", .str text)]).refersLocally = true := by
    simp [Json.refersLocally_obj, Json.fieldRefersLocally, isLocal]
  have typeObject := KeywordReader.get?_of_primitiveType gathers.isObject
  rw [gathers.modelName]
  rcases registered_of_flattenFrom (references.composedLocally inReference) gathers.flattened with
    ⟨noReference, -⟩ | ⟨target, registered, noReference, derivation⟩
  · simp [Json.get?, Json.fields?, Keyed.get?_cons] at noReference
  · exact ⟨target, flat.fields, registered, noReference, derivation, typeObject⟩

theorem Refers.refersLocally {type : RelationshipType} {referring : Json}
    (refers : registry.Refers schema type referring) (references : registry.RefersLocally)
    (inSchema : schema.refersLocally = true) : referring.refersLocally = true := by
  cases refers with
  | object => exact inSchema
  | array foundItems =>
    obtain ⟨value, read, formed⟩ := bind_eq_ok.mp foundItems
    cases value with
    | none => cases formed
    | some value =>
      obtain ⟨checked, isSchema, same⟩ := bind_eq_ok.mp formed
      obtain rfl := Option.some.inj (Except.ok.inj same)
      have inValue := references.of_effective? inSchema read
      cases value with
      | obj fields => exact Except.ok.inj isSchema ▸ inValue
      | _ => cases isSchema

theorem RefersLocally.of_gather? (references : registry.RefersLocally)
    (inSchema : schema.refersLocally = true)
    (found : registry.gather? property schema = .ok (some relationship)) :
    registry.IsObjectEntity relationship.modelName := by
  obtain ⟨referring, collected, text, flat, refers, gathers⟩ := gathers_of_gather? found
  exact references.of_gathers (refers.refersLocally references inSchema) gathers

end Registry

end EntityMapping
