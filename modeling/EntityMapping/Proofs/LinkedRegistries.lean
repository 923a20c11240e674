import EntityMapping.Proofs.BackedRegistries
import EntityMapping.Proofs.PlainRegistries

/-!
What linking the relationships of an entity does to the registry. Key columns are written into
entities, one after another, and each of these entities amounts to an object before. So no schema
changes the kind of values that it describes, however it is composed, and references stay within the
registry. Where the properties that an entity is composed of are objects, its own properties are as
they were, or are keys.
-/

set_option autoImplicit false
set_option relaxedAutoImplicit false

namespace EntityMapping

open Keyed (Distinct)
open ForeignKey (IsKeySchema keySchema)
open Registry (wrap propertyFragment)

namespace FlatSchema

/-- Flat schemas of the same type, which say the same about storage as JSON and about writing. -/
def SameKind (flat other : FlatSchema) : Prop :=
  ∀ keyword ∈ ["type", "x-json", "readOnly"],
    Keyed.get? flat.fields keyword = Keyed.get? other.fields keyword

namespace SameKind

variable {flat other last : FlatSchema}

theorem refl (flat : FlatSchema) : SameKind flat flat := fun _ _ => rfl

theorem trans (one : SameKind flat other) (two : SameKind other last) : SameKind flat last :=
  fun keyword member => (one keyword member).trans (two keyword member)

theorem primitiveType (same : SameKind flat other) :
    flat.keywords.primitiveType = other.keywords.primitiveType := by
  have sameText : flat.keywords.text? "type" = other.keywords.text? "type" :=
    KeywordReader.as_congr (same "type" (by simp))
  rw [KeywordReader.primitiveType, KeywordReader.primitiveType, KeywordReader.typeText,
    KeywordReader.typeText, sameText]

theorem json? (same : SameKind flat other) : flat.keywords.json? = other.keywords.json? :=
  KeywordReader.as_congr (same "x-json" (by simp))

theorem readOnly? (same : SameKind flat other) :
    flat.keywords.readOnly? = other.keywords.readOnly? :=
  KeywordReader.as_congr (same "readOnly" (by simp))

end SameKind

end FlatSchema

/-- The schema of a key column. -/
def ForeignKey.IsKey (schema : Json) : Prop :=
  ∃ fields type pointsAt, schema = .obj fields ∧ IsKeySchema fields type pointsAt ∧
    type.isScalar = true

namespace Json

/-- A key column refers to nothing. -/
theorem refersLocally_keySchema (type : PrimitiveType) (format : Option String)
    (maxLength : Option Nat) (nullable : Option Bool) (pointsAt : String) :
    (Json.obj (keySchema type format maxLength nullable pointsAt)).refersLocally = true := by
  have setSome : ∀ {fields : Keyed Json} {key : String} {value : Option Json},
      (Json.obj fields).refersLocally = true →
      (∀ given, value = some given → fieldRefersLocally key given = true) →
      (Json.obj (Keyed.setSome fields key value)).refersLocally = true := by
    intro fields key value object each
    cases value with
    | none => exact object
    | some given => exact refersLocally_set object (each given rfl)
  have typed : (Json.obj [("type", .str type.spelling)]).refersLocally = true := by
    simp [refersLocally_obj, fieldRefersLocally]
  refine refersLocally_set (refersLocally_set (setSome (setSome (setSome typed ?_) ?_) ?_) ?_) ?_
  · rintro given isGiven
    obtain ⟨text, -, rfl⟩ := Option.map_eq_some_iff.mp isGiven
    simp [fieldRefersLocally]
  · rintro given isGiven
    obtain ⟨length, -, rfl⟩ := Option.map_eq_some_iff.mp isGiven
    rfl
  · rintro given isGiven
    obtain ⟨flag, -, rfl⟩ := Option.map_eq_some_iff.mp isGiven
    rfl
  · simp [fieldRefersLocally]
  · rfl

/-- Laying a property over a schema adds no references but those of the property. -/
theorem refersLocally_wrap {schema added : Json} (property : String)
    (below : schema.refersLocally = true) (above : fieldRefersLocally property added = true) :
    (wrap schema (propertyFragment property added)).refersLocally = true := by
  simp [wrap, propertyFragment, refersLocally, fieldsReferLocally, fieldRefersLocally,
    itemsReferLocally, below, above]

end Json

namespace Rewriting

variable {rewriting : Rewriting} {property name : String} {added schema after part top : Json}
  {skip : Option String}

/-- Every schema says the same when a property is laid over an object, properties aside. -/
theorem alike_kept (object : rewriting.registry.AmountsToObject rewriting.schema)
    (fragment : rewriting.fragment = propertyFragment property added)
    (whole : schema.isWellKeyed = true) (rewritten : rewriting.Rewritten schema after) :
    Alike (fun flat other => Distinct flat.fields ∧ Distinct other.fields ∧
        ∀ keyword, keyword ∉ ["properties", "allOf"] →
          Keyed.get? flat.fields keyword = Keyed.get? other.fields keyword)
      (rewriting.registry.flatten name schema) (rewriting.changed.flatten name after) := by
  obtain ⟨_, _, _, flat, flattened, isObject⟩ := object
  have each : ∀ keyword : {keyword // keyword ∉ ["properties", "allOf"]},
      Alike (fun flat other => Related keyword.1 (· = ·) flat.fields other.fields)
        (rewriting.registry.flatten name schema) (rewriting.changed.flatten name after) := by
    rintro ⟨keyword, notExcepted⟩
    simp only [List.mem_cons, List.not_mem_nil, or_false, not_or] at notExcepted
    have carries : rewriting.Carries none schema keyword (· = ·) := by
      by_cases isType : keyword = "type"
      · subst isType
        exact carries_type whole (by rw [fragment]; rfl) (Registry.derives_of_flattenFrom flattened)
          isObject
      · refine carries_of_silent ?_ notExcepted.2 whole
        simp [fragment, propertyFragment, Keyed.get?_cons, Ne.symm isType, Ne.symm notExcepted.1]
    exact carries.flattenWithout rewritten
  have : Nonempty {keyword // keyword ∉ ["properties", "allOf"]} := ⟨"type", by decide⟩
  refine (Alike.all each).mono fun flat other all => ?_
  obtain ⟨distinct, distinctToo, -⟩ := all ⟨"type", by decide⟩
  exact ⟨distinct, distinctToo, fun keyword notExcepted => (all ⟨keyword, notExcepted⟩).2.2⟩

/-- Every schema stays of its kind when a property is laid over an object. -/
theorem alike_sameKind (object : rewriting.registry.AmountsToObject rewriting.schema)
    (fragment : rewriting.fragment = propertyFragment property added)
    (whole : schema.isWellKeyed = true) :
    Alike FlatSchema.SameKind (rewriting.registry.flatten name schema)
      (rewriting.changed.flatten name schema) := by
  have excepted : ∀ keyword ∈ ["type", "x-json", "readOnly"], keyword ∉ ["properties", "allOf"] := by
    decide
  exact (alike_kept object fragment whole (.inl rfl)).mono fun _ _ kept keyword member =>
    kept.2.2 keyword (excepted keyword member)

/-- What a schema is composed of afterwards is the fragment, or comes from what it was composed of
before. -/
theorem composes_changed (rewritten : rewriting.Rewritten schema after)
    (parts : rewriting.changed.Composes after part) :
    part = .obj rewriting.fragment ∨
      ∃ original, rewriting.registry.Composes schema original ∧
        rewriting.Rewritten original part := by
  induction parts generalizing schema with
  | self after => exact .inr ⟨schema, .self schema, rewritten⟩
  | @fragment own items item part noReference written member inner ih =>
    rcases rewritten with same | ⟨rfl, same⟩
    · subst same
      refine (ih (.inl rfl)).imp_right fun ⟨original, inItem, rewrittenPart⟩ => ?_
      exact ⟨original, .fragment noReference written member inItem, rewrittenPart⟩
    · obtain rfl := Json.obj.inj same
      obtain rfl : [rewriting.schema, .obj rewriting.fragment] = items :=
        Json.arr.inj (Option.some.inj written)
      rcases List.mem_pair.mp member with rfl | rfl
      · exact ih (.inl rfl)
      · exact .inl (inner.eq_of_plain rewriting.isFragment.noReference
          rewriting.isFragment.noFragments)
  | @reference own text name parsed target part reference parse led _ ih =>
    rcases rewritten with same | ⟨rfl, same⟩
    · subst same
      obtain ⟨⟨_, original⟩, ledBefore, -, rewrittenTarget⟩ :=
        (led ▸ target_alike text parsed).of_ok_right
      refine (ih rewrittenTarget).imp_right fun ⟨found, inTarget, rewrittenPart⟩ => ?_
      exact ⟨found, .reference reference parse ledBefore inTarget, rewrittenPart⟩
    · obtain rfl := Json.obj.inj same
      cases reference

/-- Where the properties that a schema is composed of are objects, they stay so when a property is
laid over an entity. -/
theorem propertiesAreObjects (fragment : rewriting.fragment = propertyFragment property added)
    (rewritten : rewriting.Rewritten schema after)
    (objects : rewriting.registry.PropertiesAreObjects schema) :
    rewriting.changed.PropertiesAreObjects after := by
  intro own value parts written
  rcases composes_changed rewritten parts with isFragment |
    ⟨original, partsBefore, same | ⟨-, same⟩⟩
  · obtain rfl := Json.obj.inj isFragment
    rw [fragment] at written
    obtain rfl := Option.some.inj written
    rfl
  · exact objects own value (same ▸ partsBefore) written
  · obtain rfl := Json.obj.inj same
    cases written

/-- Properties that are objects stay as they are when a property is laid over an entity, or are that
property. -/
theorem carries_joined {isAdded : String → Json → Prop} (whole : top.isWellKeyed = true)
    (fragment : rewriting.fragment = propertyFragment property added)
    (objects : rewriting.registry.PropertiesAreObjects top) (new : isAdded property added) :
    rewriting.Carries skip top "properties" (Joined isAdded) where
  notFragments := by decide
  absent := .refl isFields_none
  written own parts := ⟨rewriting.keyed.distinct whole parts,
    .refl (Registry.isFields_of_areObjects rewriting.keyed whole objects parts)⟩
  laid below above := below.laid (by decide) above
  added flat value _ _ joined := by
    have isObject : Keyed.get? rewriting.fragment "properties" =
        some (.obj [(property, added)]) := by rw [fragment]; rfl
    rw [isObject]
    exact joined.laid (by decide) (.appeared_single new)

end Rewriting

namespace Registry

variable {registry next : Registry} {name : String} {schema : Json}

/-- A key column that an entity lacked has been written into it. The entity amounts to an object. -/
inductive KeyWritten (registry : Registry) : Registry → Prop
  | intro {holder property : String} {schema : Json} {fields : Keyed Json} :
      registry.get? holder = some schema → registry.AmountsToObject schema →
      registry.IsMissing holder property fields →
      KeyWritten registry
        (registry.insert holder (wrap schema (propertyFragment property (.obj fields))))

/-- Key columns have been written, one after another. -/
abbrev KeysWritten : Registry → Registry → Prop := Relation.ReflTransGen KeyWritten

/-- A key column that is written is laid over an entity. -/
theorem KeyWritten.exists_rewriting (written : registry.KeyWritten next)
    (keyed : registry.WellKeyed) :
    ∃ (rewriting : Rewriting) (property : String) (added : Json), rewriting.registry = registry ∧
      rewriting.changed = next ∧ registry.AmountsToObject rewriting.schema ∧
      rewriting.fragment = propertyFragment property added ∧ ForeignKey.IsKey added ∧
      Json.fieldRefersLocally property added = true := by
  obtain ⟨registered, object, missing⟩ := written
  obtain ⟨type, pointsAt, isKey, scalar⟩ := missing.isKeySchema
  refine ⟨.ofKey _ keyed registered isKey, _, _, rfl, rfl, object, rfl,
    ⟨_, type, pointsAt, rfl, isKey, scalar⟩, ?_⟩
  obtain ⟨type, format, maxLength, nullable, pointsAt, -, rfl⟩ := missing.isKey
  rw [Json.fieldRefersLocally_obj]
  exact Json.refersLocally_keySchema type format maxLength nullable pointsAt

/-- The registry of a run that links the relationships of an entity: its references stay within it,
and the entity amounts to an object. -/
structure ReadyToLink (name : String) (registry : Registry) : Prop where
  keyed : registry.WellKeyed
  references : registry.RefersLocally
  object : ∃ schema, registry.get? name = some schema ∧ registry.AmountsToObject schema

theorem ReadyToLink.keyWritten (ready : registry.ReadyToLink name)
    (written : registry.KeyWritten next) : next.ReadyToLink name := by
  obtain ⟨rewriting, property, added, rfl, rfl, -, fragment, -, stays⟩ :=
    written.exists_rewriting ready.keyed
  obtain ⟨schema, registered, object⟩ := ready.object
  have typed : Keyed.get? rewriting.fragment "type" = some (.str "object") := by
    rw [fragment]
    rfl
  have whole := ready.keyed.of_get? registered
  have objectNow := rewriting.amountsToObject typed whole object
  refine ⟨rewriting.keyed_changed, fun entry member => ?_, ?_⟩
  · rcases Keyed.mem_of_mem_set member with rfl | before
    · have inEntity := ready.references _ (Keyed.mem_of_get? rewriting.registered)
      rw [fragment]
      exact Json.refersLocally_wrap property inEntity stays
    · exact ready.references entry before
  · rw [Rewriting.get?_changed]
    split
    · rename_i isEntity
      subst isEntity
      obtain rfl := Option.some.inj (registered.symm.trans rewriting.registered)
      obtain ⟨hops, visited, called, flat, flattened, -⟩ := objectNow
      have distinct :=
        rewriting.keyed_changed.distinct_of_derives (derives_of_flattenFrom flattened) whole
      refine ⟨_, rfl, hops, visited, called,
        ⟨called, overlaid flat.fields rewriting.fragment⟩, ?_, ?_⟩
      · rw [flattenFrom_wrap rewriting.isFragment, flattened, ok_bind]
      · rw [get?_overlaid distinct rewriting.isFragment, typed]
        rfl
    · exact ⟨schema, registered, objectNow⟩

/-- The properties that an entity is composed of are objects. -/
def ObjectsOnly (registry : Registry) (name : String) : Prop :=
  ∀ schema, registry.get? name = some schema → registry.PropertiesAreObjects schema

theorem KeyWritten.objectsOnly (written : registry.KeyWritten next) (keyed : registry.WellKeyed)
    (objects : registry.ObjectsOnly name) : next.ObjectsOnly name := by
  obtain ⟨rewriting, property, added, rfl, rfl, -, fragment, -⟩ := written.exists_rewriting keyed
  intro after entry
  have entries : Alike rewriting.Rewritten (rewriting.registry.registered name)
      (rewriting.changed.registered name) := Rewriting.registered_alike name
  rw [registered_eq_ok.mpr entry] at entries
  obtain ⟨schema, registered, rewritten⟩ := entries.of_ok_right
  exact Rewriting.propertiesAreObjects fragment rewritten
    (objects schema (registered_eq_ok.mp registered))

/-- A property is as it was, or is a key. -/
def KeptOrKey (before after : Keyed Json) (property : String) : Prop :=
  Keyed.get? after property = Keyed.get? before property ∨
    ∃ value, Keyed.get? after property = some value ∧ ForeignKey.IsKey value

/-- An entity's own properties stay or become keys when a key is written, where the properties that
it is composed of are objects. -/
theorem KeyWritten.declared (written : registry.KeyWritten next) (keyed : registry.WellKeyed)
    (objects : registry.ObjectsOnly name) (property : String) :
    KeptOrKey (registry.declared name) (next.declared name) property := by
  obtain ⟨rewriting, key, added, rfl, rfl, -, fragment, isKey, -⟩ := written.exists_rewriting keyed
  have owns : Alike (fun own other => Joined (fun _ => ForeignKey.IsKey)
        (Keyed.get? own.fields "properties") (Keyed.get? other.fields "properties"))
      (rewriting.registry.registered name >>= rewriting.registry.ownSchema name)
      (rewriting.changed.registered name >>= rewriting.changed.ownSchema name) := by
    refine (Rewriting.registered_alike name).bind_of_eq fun schema after entry rewritten => ?_
    have registered := registered_eq_ok.mp entry
    have whole := keyed.of_get? registered
    exact (Rewriting.ownSchema_alike (fun _ => Rewriting.carries_joined whole fragment
      (objects schema registered) isKey) whole rewritten).mono fun _ _ same => same.2.2.2
  unfold Registry.declared
  generalize rewriting.registry.registered name >>= rewriting.registry.ownSchema name = before
    at owns ⊢
  generalize rewriting.changed.registered name >>= rewriting.changed.ownSchema name = after
    at owns ⊢
  cases owns with
  | ok joined => exact joined.each property
  | error e => exact .inl rfl

namespace KeysWritten

theorem keyed (written : registry.KeysWritten next) (before : registry.WellKeyed) :
    next.WellKeyed := by
  induction written with
  | refl => exact before
  | tail _ step ih =>
    obtain ⟨rewriting, -, -, rfl, rfl, -⟩ := step.exists_rewriting ih
    exact rewriting.keyed_changed

theorem ready (written : registry.KeysWritten next) (before : registry.ReadyToLink name) :
    next.ReadyToLink name := by
  induction written with
  | refl => exact before
  | tail _ step ih => exact ih.keyWritten step

/-- Every schema stays of its kind when keys are written. -/
theorem flatten_alike (written : registry.KeysWritten next) (keyed : registry.WellKeyed)
    (whole : schema.isWellKeyed = true) :
    Alike FlatSchema.SameKind (registry.flatten name schema) (next.flatten name schema) := by
  induction written with
  | refl => exact (Alike.refl _).mono fun flat _ same => same ▸ .refl flat
  | tail earlier step ih =>
    obtain ⟨rewriting, property, added, rfl, rfl, object, fragment, -⟩ :=
      step.exists_rewriting (KeysWritten.keyed earlier keyed)
    exact ih.trans (fun _ _ _ => .trans) (Rewriting.alike_sameKind object fragment whole)

theorem objectsOnly (written : registry.KeysWritten next) (keyed : registry.WellKeyed)
    (objects : registry.ObjectsOnly name) : next.ObjectsOnly name := by
  induction written with
  | refl => exact objects
  | tail earlier step ih => exact step.objectsOnly (KeysWritten.keyed earlier keyed) ih

/-- An entity's own properties stay or become keys, where the properties that it is composed of are
objects. -/
theorem declared (written : registry.KeysWritten next) (keyed : registry.WellKeyed)
    (objects : registry.ObjectsOnly name) (property : String) :
    KeptOrKey (registry.declared name) (next.declared name) property := by
  induction written with
  | refl => exact .inl rfl
  | tail earlier step ih =>
    have objectsThen := KeysWritten.objectsOnly earlier keyed objects
    rcases step.declared (KeysWritten.keyed earlier keyed) objectsThen property with same | isKey
    · unfold KeptOrKey
      rw [same]
      exact ih
    · exact .inr isKey

end KeysWritten

/-- Ensuring a key on an entity that amounts to an object writes a key column at most. -/
theorem keyWritten_of_ensureForeignKey {store after : ModelStore} {target owning column : String}
    {nullable : Option Bool}
    (object : ∀ schema, registry.get? target = some schema → registry.AmountsToObject schema)
    (ensured : registry.ensureForeignKey store target owning column nullable = .ok (next, after)) :
    next = registry ∨ registry.KeyWritten next := by
  obtain ⟨requirement, required, -⟩ := bind_eq_ok.mp ensured
  cases requirement with
  | satisfied property =>
    rw [ensureForeignKey_of_satisfied store required, Except.ok.injEq] at ensured
    exact .inl (Prod.mk.inj ensured).1.symm
  | missing property schema key =>
    obtain ⟨fields, rfl, missing⟩ := isMissing_of_foreignKey required
    obtain ⟨schema, -, registered, -⟩ := missing.own
    rw [ensureForeignKey_of_missing store required registered, Except.ok.injEq] at ensured
    split at ensured
    · exact .inl (Prod.mk.inj ensured).1.symm
    · obtain ⟨rfl, -⟩ := Prod.mk.inj ensured
      exact .inr (.intro registered (object schema registered) missing)

theorem keysWritten_of_ensureForeignKey {store after : ModelStore} {target owning column : String}
    {nullable : Option Bool}
    (object : ∀ schema, registry.get? target = some schema → registry.AmountsToObject schema)
    (ensured : registry.ensureForeignKey store target owning column nullable = .ok (next, after)) :
    registry.KeysWritten next := by
  rcases keyWritten_of_ensureForeignKey object ensured with rfl | written
  · exact .refl
  · exact .single written

end Registry

namespace Compilation

variable {before after : Compilation} {name : String} {properties : Keyed Json}
  {relationship : Relationship} {gathered : Keyed Relationship}

/-- Linking a relationship to an object writes a key column at most. -/
theorem keysWritten_of_link (ready : before.registry.ReadyToLink name)
    (toObject : before.registry.IsObjectEntity relationship.modelName)
    (linked : (link name relationship).runOn before = (.ok (), after)) :
    before.registry.KeysWritten after.registry := by
  by_cases direct : relationship.cardinality.needsAssociationTable = false
  · obtain ⟨nullable, ensured⟩ := link_eq_ok direct linked
    refine Registry.keysWritten_of_ensureForeignKey (fun schema registered => ?_) ensured
    unfold Relationship.holder at registered
    split at registered
    · obtain ⟨_, registeredToo, object⟩ := ready.object
      exact Option.some.inj (registeredToo.symm.trans registered) ▸ object
    · exact .of_isObjectEntity ready.references toObject registered
  · obtain ⟨secondary, joined⟩ := Cardinality.joined_of_not_direct direct
    obtain ⟨table, -, added⟩ := (link_joined joined).mp linked
    exact (mem_tables_of_addTable added).1 ▸ .refl

/-- Linking a property writes a key column at most. -/
theorem keysWritten_of_linkProperty {property : String} {schema : Json}
    {found : Option Relationship} (ready : before.registry.ReadyToLink name)
    (references : schema.refersLocally = true)
    (linked : (linkProperty name property schema).runOn before = (.ok found, after)) :
    before.registry.KeysWritten after.registry := by
  obtain ⟨isGathered, linked⟩ := linkProperty_eq_ok.mp linked
  cases found with
  | none => exact linked ▸ .refl
  | some relationship =>
    exact keysWritten_of_link ready (ready.references.of_gather? references isGathered) linked

/-- Linking the relationships among some properties of an entity writes key columns. -/
theorem keysWritten_of_linkProperties (ready : before.registry.ReadyToLink name)
    (references : ∀ field ∈ properties, field.2.refersLocally = true)
    (linked : (linkProperties name properties).runOn before = (.ok gathered, after)) :
    before.registry.KeysWritten after.registry := by
  induction properties generalizing before gathered with
  | nil =>
    obtain ⟨-, rfl⟩ := Prod.mk.inj linked
    exact .refl
  | cons field rest ih =>
    obtain ⟨found, middle, others, one, later, -⟩ := linkProperties_cons_eq_ok.mp linked
    have here := keysWritten_of_linkProperty ready (references _ List.mem_cons_self) one
    exact here.trans (ih (here.ready ready)
      (fun other member => references other (List.mem_cons_of_mem _ member)) later)

end Compilation

end EntityMapping
