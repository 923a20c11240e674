import EntityMapping.Proofs.CompiledProperties
import EntityMapping.Proofs.Declarations
import EntityMapping.Proofs.DressedRelationships
import EntityMapping.Proofs.PreparedRegistries

/-!
What entities of a registry with additions declare. Where no entity is composed, its parent aside,
of one that has got key columns, an entity declares what it declared, followed by its own key
columns. Key columns are no relationships, so what relationships imply stays the same.
-/

set_option autoImplicit false
set_option relaxedAutoImplicit false

namespace EntityMapping

open Keyed (Distinct)
open ForeignKey (IsKeySchema)

namespace Additions

variable {additions : Additions}

/-- The key columns as properties. -/
def keyProperties (additions : Additions) : Keyed Json :=
  additions.keys.map fun key => (key.1, .obj key.2)

theorem keys_keyProperties (additions : Additions) :
    Keyed.keys additions.keyProperties = Keyed.keys additions.keys := by
  simp [keyProperties, Keyed.keys]

theorem distinct_keyProperties (additions : Additions) : Distinct additions.keyProperties := by
  rw [Distinct, keys_keyProperties]
  exact additions.distinct

theorem fieldsIn_laid_property (value : Option Json) (property : String) (schema : Json) :
    fieldsIn (laidValue "properties" value (some (.obj [(property, schema)]))) =
      Keyed.set (fieldsIn value) property schema := by
  rw [laidValue_properties_obj]
  cases value with
  | none => rfl
  | some value => cases value <;> rfl

/-- Once everything is added, the properties are what they were, with the key columns set. -/
theorem fieldsIn_valueOver_properties (additions : Additions) (value : Option Json) :
    fieldsIn (additions.valueOver "properties" value) =
      Keyed.setAll (fieldsIn value) additions.keyProperties := by
  have backrefs : (additions.backrefs.map Registry.backrefFragment).toList.foldl
      (fun below fragment => laidValue "properties" below (Keyed.get? fragment "properties"))
      value = value := by
    cases additions.backrefs <;> rfl
  unfold valueOver fragments keyProperties
  rw [List.foldl_append, backrefs, List.foldl_map]
  induction additions.keys generalizing value with
  | nil => rfl
  | cons key rest ih =>
    rw [List.foldl_cons, List.map_cons, Keyed.setAll_cons, ih]
    · exact congrArg (fun fields => Keyed.setAll fields _)
        (fieldsIn_laid_property value key.1 (.obj key.2))
    · cases additions.backrefs <;> rfl

theorem valueOver_properties_of_keys_nil (noKeys : additions.keys = []) (value : Option Json) :
    additions.valueOver "properties" value = value := by
  unfold valueOver fragments
  rw [noKeys]
  cases additions.backrefs <;> rfl

end Additions

namespace Registry

variable {base dressed : Registry} {additions : String → Additions} {name : String} {schema : Json}

/-- Key columns that are added to entities: an entity does not declare them, no entity is composed
of one that gets them, its parent aside, and each is the schema of a key. -/
structure KeysApart (base : Registry) (additions : String → Additions) : Prop where
  unmet : ∀ name schema parent, base.get? name = some schema →
    base.parent? name schema = .ok parent → ∀ entity, base.Meets parent schema entity →
      (additions entity).keys = []
  fresh : ∀ name, ∀ key ∈ (additions name).keys, key.1 ∉ Keyed.keys (base.declared name)
  schemas : ∀ name, ∀ key ∈ (additions name).keys, ∃ type pointsAt,
    IsKeySchema key.2 type pointsAt ∧ type.isScalar = true

theorem KeysApart.of_nil (noKeys : ∀ name, (additions name).keys = []) :
    base.KeysApart additions where
  unmet _ _ _ _ _ entity _ := noKeys entity
  fresh name key member := by simp [noKeys name] at member
  schemas name key member := by simp [noKeys name] at member

/-- What an entity says itself, type and back references aside, with its own additions on top. -/
def OwnDressed (added : Additions) (own other : OwnSchema) : Prop :=
  own.parent = other.parent ∧ Distinct own.fields ∧ Distinct other.fields ∧
    ∀ keyword, keyword ∉ ["type", "x-backrefs"] →
      Keyed.get? other.fields keyword = added.valueOver keyword (Keyed.get? own.fields keyword)

namespace Dresses

/-- What belongs to an entity itself, its own additions aside, says the same in both registries. -/
theorem flattenOwn_sameBut {parent : Option String} (dresses : base.Dresses additions dressed)
    (keyed : base.WellKeyed) (apart : base.KeysApart additions)
    (registered : base.get? name = some schema) (parentFound : base.parent? name schema = .ok parent) :
    Alike (SameBut ["type", "x-backrefs"]) (base.flattenWithout parent name schema)
      (dressed.flattenWithout parent name schema) := by
  have whole := keyed.of_get? registered
  refine dresses.flattenWithout_sameBut ⟨"x-tablename", by decide⟩ fun keyword notExcepted => ?_
  by_cases isProperties : keyword = "properties"
  · subst isProperties
    refine keeps_eq keyed whole fun entity _ _ _ meets _ => ?_
    exact Additions.valueOver_properties_of_keys_nil
      (apart.unmet name schema parent registered parentFound entity meets) _
  · refine keeps_silent keyed whole ?_
    simp only [Additions.keywords, List.mem_cons, List.not_mem_nil, or_false, not_or]
      at notExcepted ⊢
    exact ⟨notExcepted.1, isProperties, notExcepted.2⟩

/-- What belongs to an entity itself is what belonged to it, with its own additions on top. -/
theorem ownSchema_alike (dresses : base.Dresses additions dressed) (keyed : base.WellKeyed)
    (apart : base.KeysApart additions) (registered : base.get? name = some schema) :
    Alike (OwnDressed (additions name)) (base.ownSchema name schema)
      (dressed.ownSchema name ((additions name).apply schema)) := by
  rw [dresses.ownSchema keyed (keyed.of_get? registered) (dresses.named _ _ registered),
    Registry.ownSchema]
  refine (Alike.refl _).bind_of_eq fun parent _ parentFound same => ?_
  subst same
  have flats := dresses.flattenOwn_sameBut keyed apart registered parentFound
  generalize base.flattenWithout parent name schema = below at flats ⊢
  generalize dressed.flattenWithout parent name schema = above at flats ⊢
  cases flats with
  | error e => exact .error e
  | @ok flat other same =>
    refine .ok ⟨rfl, same.2.1, Additions.distinct_laidOn same.2.2.1, fun keyword notExcepted => ?_⟩
    rw [Additions.get?_laidOn same.2.2.1, same.2.2.2 keyword notExcepted]

end Dresses

/-- An entity declares what it declared, followed by its own key columns. -/
theorem OwnDressed.propertiesIn {own other : OwnSchema} {added : Additions}
    (same : OwnDressed added own other)
    (fresh : ∀ key ∈ added.keys, key.1 ∉ Keyed.keys (propertiesIn own.fields)) :
    propertiesIn other.fields = propertiesIn own.fields ++ added.keyProperties := by
  have laid : EntityMapping.propertiesIn other.fields =
      Keyed.setAll (EntityMapping.propertiesIn own.fields) added.keyProperties := by
    have written := same.2.2.2 "properties" (by decide)
    have laidHere := added.fieldsIn_valueOver_properties (Keyed.get? own.fields "properties")
    rw [← written] at laidHere
    exact laidHere
  rw [laid, Keyed.setAll_eq_append _ added.distinct_keyProperties]
  intro key member
  rw [Additions.keys_keyProperties] at member
  obtain ⟨pair, inKeys, rfl⟩ := List.mem_map.mp member
  exact fresh pair inKeys

theorem OwnDressed.tablename? {own other : OwnSchema} {added : Additions}
    (same : OwnDressed added own other) :
    other.keywords.tablename? = own.keywords.tablename? := by
  refine KeywordReader.as_congr ?_
  rw [same.2.2.2 _ (by decide),
    Additions.valueOver_of_silent _ (by decide) (by decide) (by decide)]

theorem isWellKeyed_of_mem_propertiesIn {fields : Keyed Json} {property : String × Json}
    (whole : (Json.obj fields).isWellKeyed = true) (member : property ∈ propertiesIn fields) :
    property.2.isWellKeyed = true := by
  unfold propertiesIn at member
  cases written : Keyed.get? fields "properties" with
  | none => simp [written] at member
  | some value =>
    have object := Json.isWellKeyed_of_get? whole written
    cases value with
    | obj fields =>
      rw [written] at member
      exact ((Json.isWellKeyed_obj fields).mp object).2 property member
    | _ => simp [written, Json.fields?] at member

theorem isWellKeyed_of_declared (keyed : base.WellKeyed)
    (registered : base.get? name = some schema) {own : OwnSchema}
    (found : base.ownSchema name schema = .ok own) :
    ∀ property ∈ propertiesIn own.fields, property.2.isWellKeyed = true := by
  obtain ⟨-, flat, flattened, same⟩ := ownSchema_eq_ok.mp found
  have whole : (Json.obj own.fields).isWellKeyed = true :=
    same ▸ keyed.of_derives (derives_of_flattenFrom flattened) (keyed.of_get? registered)
  exact fun property member => isWellKeyed_of_mem_propertiesIn whole member

theorem isWellKeyed_declared (keyed : base.WellKeyed) (registered : base.get? name = some schema)
    {own : OwnSchema} (found : base.ownSchema name schema = .ok own) :
    ∀ property ∈ base.declared name, property.2.isWellKeyed = true := by
  rw [declared_eq registered found]
  exact isWellKeyed_of_declared keyed registered found

theorem reversesOf_append {registry : Registry} {owner : String} (first second : Keyed Json) :
    registry.reversesOf owner (first ++ second) =
      registry.reversesOf owner first >>= fun entries =>
        registry.reversesOf owner second >>= fun others => .ok (entries ++ others) := by
  induction first with
  | nil =>
    simp only [List.nil_append, reversesOf, ok_bind]
    cases registry.reversesOf owner second <;> rfl
  | cons field rest ih =>
    obtain ⟨property, schema⟩ := field
    simp only [List.cons_append, reversesOf, ih, bind_assoc, pure_eq_ok, ok_bind,
      List.append_assoc]

/-- Key columns imply nothing. -/
theorem reversesOf_keyProperties {registry : Registry} {owner : String} {added : Additions}
    (schemas : ∀ key ∈ added.keys, ∃ type pointsAt,
      IsKeySchema key.2 type pointsAt ∧ type.isScalar = true) :
    registry.reversesOf owner added.keyProperties = .ok [] := by
  unfold Additions.keyProperties
  generalize added.keys = keys at schemas
  induction keys with
  | nil => rfl
  | cons key rest ih =>
    obtain ⟨type, pointsAt, isKey, scalar⟩ := schemas key List.mem_cons_self
    rw [List.map_cons, reversesOf, ih fun other member => schemas other (.tail _ member)]
    simp [reverseOf?, isKey.gather? scalar, inContext, Except.mapError]

namespace Dresses

theorem reversesOf (dresses : base.Dresses additions dressed) (keyed : base.WellKeyed)
    (typed : base.ObjectsDressed additions) {owner : String} {properties : Keyed Json}
    (whole : ∀ property ∈ properties, property.2.isWellKeyed = true) :
    dressed.reversesOf owner properties = base.reversesOf owner properties := by
  induction properties with
  | nil => rfl
  | cons field rest ih =>
    have wholeRest := fun property member => whole property (List.mem_cons_of_mem _ member)
    rw [Registry.reversesOf, Registry.reversesOf, ih wholeRest, Registry.reverseOf?,
      Registry.reverseOf?, dresses.gather? keyed typed _ (whole field List.mem_cons_self)]

/-- An entity implies the same in both registries. -/
theorem entityBackrefs (dresses : base.Dresses additions dressed) (keyed : base.WellKeyed)
    (typed : base.ObjectsDressed additions) (apart : base.KeysApart additions)
    (registered : base.get? name = some schema) :
    dressed.entityBackrefs name ((additions name).apply schema) =
      base.entityBackrefs name schema := by
  rw [entityBackrefs_eq, entityBackrefs_eq]
  refine (Alike.eq ?_).symm
  refine (dresses.ownSchema_alike keyed apart registered).bind_of_eq fun own other found same => ?_
  have fresh := apart.fresh name
  rw [declared_eq registered found] at fresh
  have whole := isWellKeyed_of_declared keyed registered found
  rw [same.tablename?, same.propertiesIn fresh, reversesOf_append,
    dresses.reversesOf keyed typed whole, reversesOf_keyProperties (apart.schemas name)]
  cases base.reversesOf name (propertiesIn own.fields) <;>
    simpa using Alike.refl _

end Dresses

end Registry

end EntityMapping
