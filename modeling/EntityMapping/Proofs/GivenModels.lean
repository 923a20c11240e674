import EntityMapping.Proofs.AddedBackrefs
import EntityMapping.Proofs.AgreedKeys

/-!
Models as the registry is given. Without anything that a run adds, an entity has the artifacts of
what it declares. At every moment of a run with settled keys its model has these, and as columns the
keys that the entity has got by then.
-/

set_option autoImplicit false
set_option relaxedAutoImplicit false

namespace EntityMapping

open Keyed (Distinct)
open ForeignKey (IsKeySchema)

namespace Column

variable {read other : KeywordReader} {required : Option Bool}

/-- A column is read from other keywords than the properties and back references of an object. -/
theorem ofKeywords_congr (same : ∀ keyword, keyword ∉ ["properties", "x-backrefs"] →
    read keyword = other keyword) : ofKeywords read required = ofKeywords other required := by
  have each : ∀ {α : Type} (form : KeywordForm α) keyword,
      keyword ∉ ["properties", "x-backrefs"] → read.as form keyword = other.as form keyword := by
    intro α form keyword notExcepted
    rw [KeywordReader.as, KeywordReader.as, same keyword notExcepted]
  have default : read "default" = other "default" := same "default" (by decide)
  simp (disch := decide) only [ofKeywords, KeywordReader.primitiveType, KeywordReader.typeText,
    KeywordReader.text?, KeywordReader.flag, KeywordReader.flag?, KeywordReader.format?,
    KeywordReader.maxLength?, KeywordReader.foreignKey?, KeywordReader.arguments?,
    KeywordReader.default?, KeywordReader.nullable?, KeywordReader.description?, each, default]

theorem ofSchema_congr {flat another : FlatSchema}
    (same : SameBut ["properties", "x-backrefs"] flat another) :
    ofSchema flat.schema required = ofSchema another.schema required := by
  obtain ⟨-, -, -, sameWords⟩ := same
  have isFlat : flat.schema.isFlat = another.schema.isFlat := by
    simp only [FlatSchema.schema, Json.isFlat, Keyed.contains, sameWords "$ref" (by decide),
      sameWords "allOf" (by decide)]
  have keywords : ofKeywords (KeywordReader.ofFields flat.fields) required =
      ofKeywords (KeywordReader.ofFields another.fields) required := by
    refine ofKeywords_congr fun keyword notExcepted => ?_
    rw [KeywordReader.ofFields, KeywordReader.ofFields, presentValue?, presentValue?,
      sameWords keyword notExcepted]
  change (if flat.schema.isFlat then _ else _) = (if another.schema.isFlat then _ else _)
  rw [isFlat, keywords]

/-- A column that is not required is one of which it is not known whether it is. -/
theorem ofSchema_notRequired (schema : Json) : ofSchema schema (some false) = ofSchema schema none := by
  have decided : ∀ stated generated defaulted,
      decideNullable stated (some false) generated defaulted =
        decideNullable stated none generated defaulted := by
    intro stated generated defaulted
    cases stated <;> rfl
  unfold ofSchema ofKeywords
  simp only [decided]

end Column

/-- Properties of a model without the schemas that it records for them. -/
def artifactsOf (properties : List ModelProperty) : Keyed PropertyArtifacts :=
  properties.map fun property => (property.name, property.artifacts)

/-- What the properties of a model are. -/
def Model.artifacts (model : Model) : Keyed PropertyArtifacts := artifactsOf model.properties

/-- The same property of a model, some keywords of the schema that is recorded for a column aside. -/
structure ModelProperty.SameBut (except : List String) (property other : ModelProperty) : Prop where
  name : property.name = other.name
  artifacts : property.artifacts = other.artifacts
  schema : property.schema = other.schema ∨ ∃ column flat flatToo,
    property.artifacts = .column column ∧ EntityMapping.SameBut except flat flatToo ∧
      property.schema = flat.schema ∧ other.schema = flatToo.schema

theorem ModelProperty.SameBut.refl {except : List String} (property : ModelProperty) :
    ModelProperty.SameBut except property property := ⟨rfl, rfl, .inl rfl⟩

theorem artifactsOf_congr {except : List String} {properties others : List ModelProperty}
    (same : List.Forall₂ (ModelProperty.SameBut except) properties others) :
    artifactsOf properties = artifactsOf others := by
  induction same with
  | nil => rfl
  | cons first _ ih =>
    rw [artifactsOf, List.map_cons, first.name, first.artifacts]
    exact congrArg _ ih

theorem Model.hasProperty_iff {model : Model} {property : String} :
    model.hasProperty property = true ↔ property ∈ Keyed.keys model.artifacts := by
  simp [hasProperty, property?, artifacts, artifactsOf, Keyed.keys]

namespace Compilation

variable {registry base dressed : Registry} {required : List String} {gathered : Keyed Relationship}
  {additions : String → Additions}

theorem modelProperties_append (first second : Keyed Json) :
    modelProperties registry required gathered (first ++ second) =
      modelProperties registry required gathered first >>= fun properties =>
        modelProperties registry required gathered second >>= fun others =>
          .ok (properties ++ others) := by
  induction first with
  | nil =>
    rw [List.nil_append, modelProperties, ok_bind]
    cases modelProperties registry required gathered second <;> rfl
  | cons field rest ih =>
    obtain ⟨property, schema⟩ := field
    rw [List.cons_append, modelProperties_cons, modelProperties_cons, ih]
    simp only [bind_assoc, ok_bind, List.append_assoc]

/-- A model has artifacts under names of declared properties only. -/
theorem keys_of_modelProperties {declared : Keyed Json} {properties : List ModelProperty}
    (compiled : modelProperties registry required gathered declared = .ok properties) :
    ∀ property ∈ Keyed.keys (artifactsOf properties), property ∈ Keyed.keys declared := by
  intro property member
  have names : Keyed.keys (artifactsOf properties) = properties.map ModelProperty.name := by
    simp [artifactsOf, Keyed.keys]
  exact (sublist_of_modelProperties compiled).subset (names ▸ member)

/-- Added keys become columns, where they are not required and not gathered. -/
theorem modelProperties_keys {keys : Keyed (Keyed Json)}
    (each : ∀ key ∈ keys, (∃ type pointsAt, IsKeySchema key.2 type pointsAt ∧
      type.isScalar = true) ∧ (∃ column, Column.ofSchema (.obj key.2) none = .ok column) ∧
      key.1 ∉ required ∧ key.1 ∉ Keyed.keys gathered) :
    ∃ properties, modelProperties registry required gathered
        (keys.map fun key => (key.1, .obj key.2)) = .ok properties ∧
      (∀ artifact ∈ artifactsOf properties, ∃ key ∈ keys, ∃ column, artifact.1 = key.1 ∧
        Column.ofSchema (.obj key.2) none = .ok column ∧ artifact.2 = .column column) ∧
      ∀ key ∈ keys, key.1 ∈ Keyed.keys (artifactsOf properties) := by
  induction keys with
  | nil => exact ⟨[], rfl, by simp [artifactsOf], by simp⟩
  | cons key rest ih =>
    obtain ⟨⟨type, pointsAt, isKey, scalar⟩, ⟨column, isColumn⟩, notRequired, notGathered⟩ :=
      each key List.mem_cons_self
    obtain ⟨others, compiledOthers, areKeys, all⟩ :=
      ih fun other member => each other (List.mem_cons_of_mem _ member)
    have here : compiledProperty? registry required gathered key.1 (.obj key.2) =
        .ok (some ⟨key.1, .column column, .obj key.2⟩) := by
      rw [compiledProperty?, (Keyed.get?_eq_none_iff _ _).mpr notGathered]
      dsimp only
      have isIn : required.contains key.1 = false := by simpa using notRequired
      have built : Column.ofSchema (FlatSchema.schema ⟨key.1, key.2⟩) (some false) = .ok column :=
        (Column.ofSchema_notRequired _).trans isColumn
      simp only [columnProperty?, isKey.flatten, ok_bind, isKey.json?, isKey.primitiveType, scalar,
        isIn, built]
      rfl
    refine ⟨⟨key.1, .column column, .obj key.2⟩ :: others, ?_, ?_, ?_⟩
    · rw [List.map_cons, modelProperties_cons, here, ok_bind, compiledOthers]
      rfl
    · intro artifact member
      rcases List.mem_cons.mp member with rfl | later
      · exact ⟨key, List.mem_cons_self, column, rfl, isColumn, rfl⟩
      · obtain ⟨other, inRest, found⟩ := areKeys artifact later
        exact ⟨other, List.mem_cons_of_mem _ inRest, found⟩
    · intro other member
      rcases List.mem_cons.mp member with rfl | inRest
      · exact List.mem_cons_self
      · exact List.mem_cons_of_mem _ (all other inRest)

/-- Properties are compiled alike where all schemas are flattened alike. -/
theorem modelProperties_sameBut {one two : Registry} {except : List String}
    (subset : except ⊆ ["properties", "x-backrefs"])
    (flattened : ∀ {name schema}, schema.isWellKeyed = true →
      Alike (SameBut except) (one.flatten name schema) (two.flatten name schema))
    {declared : Keyed Json} (whole : ∀ field ∈ declared, field.2.isWellKeyed = true) :
    Alike (List.Forall₂ (ModelProperty.SameBut except))
      (modelProperties one required gathered declared)
      (modelProperties two required gathered declared) := by
  have column : ∀ {property schema}, schema.isWellKeyed = true →
      Alike (Option.Rel (ModelProperty.SameBut except))
        (columnProperty? one required property schema)
        (columnProperty? two required property schema) := by
    intro property schema here
    refine (flattened here).bind fun flat other same => ?_
    have wider := same.mono subset
    rw [wider.primitiveType]
    refine (Alike.refl _).bind fun type _ sameType => ?_
    subst sameType
    rw [wider.json?]
    refine (Alike.refl _).bind fun json _ sameJson => ?_
    subst sameJson
    dsimp only
    split
    · exact .ok .none
    · rw [Column.ofSchema_congr wider]
      refine (Alike.refl _).bind fun column _ sameColumn => ?_
      subst sameColumn
      exact .ok (.some ⟨rfl, rfl, .inr ⟨column, flat, other, rfl, same, rfl, rfl⟩⟩)
  induction declared with
  | nil => exact .ok .nil
  | cons field rest ih =>
    obtain ⟨property, schema⟩ := field
    obtain ⟨here, later⟩ := List.forall_mem_cons.mp whole
    rw [modelProperties_cons, modelProperties_cons]
    have first : Alike (Option.Rel (ModelProperty.SameBut except))
        (compiledProperty? one required gathered property schema)
        (compiledProperty? two required gathered property schema) := by
      unfold compiledProperty?
      split
      · exact .ok (.some (.refl _))
      · exact (column here).inContext
    refine first.bind fun compiled other same => (ih later).bind fun properties others each => ?_
    cases same with
    | none => exact .ok each
    | some same => exact .ok (.cons same each)

/-- What is declared has the same artifacts at every moment. -/
theorem modelProperties_alike (dresses : base.Dresses additions dressed) (keyed : base.WellKeyed)
    (typed : base.ObjectsDressed additions) {declared : Keyed Json}
    (whole : ∀ field ∈ declared, field.2.isWellKeyed = true) :
    Alike (fun properties others => artifactsOf properties = artifactsOf others)
      (modelProperties base required gathered declared)
      (modelProperties dressed required gathered declared) :=
  (modelProperties_sameBut (List.Subset.refl _) (dresses.flatten_sameBut keyed typed) whole).mono
    fun _ _ => artifactsOf_congr

/-- Models are alike if their properties are and all else is read from the same values. -/
theorem model_alike {related : List ModelProperty → List ModelProperty → Prop}
    {name tablename : String} {parent : Option String} {own other : Keyed Json}
    (silent : ∀ keyword, keyword ∉ ["type", "properties", "x-backrefs"] →
      Keyed.get? other keyword = Keyed.get? own keyword)
    (properties : Alike related
      (propertiesOf own >>= modelProperties base (requiredOf own) gathered)
      (propertiesOf other >>= modelProperties dressed (requiredOf own) gathered)) :
    Alike (fun given made => given.name = name ∧ related given.properties made.properties ∧
        made = { given with properties := made.properties, backrefs := backrefsIn other })
      (model base name tablename parent gathered own)
      (model dressed name tablename parent gathered other) := by
  have required : requiredOf other = requiredOf own := by
    rw [requiredOf, requiredOf, silent "required" (by decide)]
  have description : (KeywordReader.ofFields other).description? =
      (KeywordReader.ofFields own).description? :=
    KeywordReader.as_congr (silent "description" (by decide))
  have present : ∀ keyword, keyword ∉ ["type", "properties", "x-backrefs"] →
      presentValue? other keyword = presentValue? own keyword := by
    intro keyword notExcepted
    rw [presentValue?, presentValue?, silent keyword notExcepted]
  unfold model
  rw [required]
  dsimp only
  rw [description, present "x-composite-index" (by decide), present "x-composite-unique" (by decide),
    present "x-mixins" (by decide), silent "x-kwargs" (by decide)]
  refine (Alike.refl _).bind fun text _ sameText => ?_
  subst sameText
  rw [← bind_assoc, ← bind_assoc]
  refine properties.bind fun given made areRelated => ?_
  refine (Alike.refl _).bind fun indexes _ sameIndexes => ?_
  subst sameIndexes
  refine (Alike.refl _).bind fun uniques _ sameUniques => ?_
  subst sameUniques
  refine (Alike.refl _).bind fun mixins _ sameMixins => ?_
  subst sameMixins
  refine (Alike.refl _).bind fun arguments _ sameArguments => ?_
  subst sameArguments
  exact .ok ⟨rfl, areRelated, rfl⟩

end Compilation

namespace Registry

open Compilation

variable {registry base : Registry} {name tablename : String} {schema : Json}
  {additions : String → Additions} {own other : OwnSchema} {gathered : Keyed Relationship}
  {properties : Keyed Json}

/-- Gather the relationships among some properties. -/
def gatherAll (registry : Registry) : Keyed Json → Except SchemaError (Keyed Relationship)
  | [] => .ok []
  | (property, schema) :: rest => do
      let found ← registry.gather? property schema
      let others ← registry.gatherAll rest
      return (found.map fun relationship => (property, relationship)).toList ++ others

/-- The model of an entity in the registry as it is, with nothing added to it; none if it has no
table. -/
def modelOf? (registry : Registry) (name : String) : Except SchemaError (Option Model) :=
  match registry.get? name with
  | none => .ok none
  | some schema => do
      let own ← registry.ownSchema name schema
      match ← own.keywords.tablename? with
      | none => return none
      | some tablename =>
          let gathered ← registry.gatherAll (registry.declared name)
          return some (← Compilation.model registry name tablename own.parent gathered own.fields)

theorem keys_of_gatherAll (found : registry.gatherAll properties = .ok gathered) :
    ∀ property ∈ Keyed.keys gathered, property ∈ Keyed.keys properties := by
  induction properties generalizing gathered with
  | nil =>
    obtain rfl := Except.ok.inj found
    simp
  | cons field rest ih =>
    obtain ⟨name, schema⟩ := field
    obtain ⟨first, -, found⟩ := bind_eq_ok.mp found
    obtain ⟨others, foundOthers, found⟩ := bind_eq_ok.mp found
    obtain rfl := Except.ok.inj found
    intro property member
    obtain ⟨entry, inGathered, rfl⟩ := List.mem_map.mp member
    rcases List.mem_append.mp inGathered with here | later
    · obtain ⟨relationship, -, rfl⟩ := Option.map_eq_some_iff.mp (Option.mem_toList.mp here)
      exact List.mem_cons_self
    · exact List.mem_cons_of_mem _ (ih foundOthers _ (List.mem_map.mpr ⟨entry, later, rfl⟩))

/-- How an entity has a model in the registry as it is. -/
theorem modelOf?_eq_ok {made : Option Model} : registry.modelOf? name = .ok made ↔
    (registry.get? name = none ∧ made = none) ∨
    ∃ schema own tablename, registry.get? name = some schema ∧
      registry.ownSchema name schema = .ok own ∧ own.keywords.tablename? = .ok tablename ∧
      match tablename with
      | none => made = none
      | some tablename => ∃ gathered built, registry.gatherAll (registry.declared name) = .ok gathered ∧
          Compilation.model registry name tablename own.parent gathered own.fields = .ok built ∧
          made = some built := by
  unfold modelOf?
  cases registered : registry.get? name with
  | none => simp [eq_comm]
  | some schema =>
  simp only [reduceCtorEq, false_and, false_or, Option.some.injEq, exists_and_left,
    exists_eq_left', bind_eq_ok]
  refine exists_congr fun own => and_congr_right fun _ => ?_
  refine exists_congr fun tablename => and_congr_right fun _ => ?_
  cases tablename with
  | none => simp [eq_comm]
  | some tablename =>
    simp only [bind_eq_ok, pure_eq_ok, Except.ok.injEq, @eq_comm _ _ made]

theorem declared_of_modelOf? {given : Model} (found : registry.modelOf? name = .ok (some given)) :
    ∀ property ∈ Keyed.keys given.artifacts, property ∈ Keyed.keys (registry.declared name) := by
  rcases modelOf?_eq_ok.mp found with ⟨-, absent⟩ |
    ⟨schema, own, tablename, registered, ownFound, -, isModel⟩
  · cases absent
  cases tablename with
  | none => cases isModel
  | some tablename =>
    obtain ⟨gathered, built, -, compiled, same⟩ := isModel
    obtain rfl := Option.some.inj same
    obtain ⟨-, properties, propertiesFound, compiledProperties⟩ := model_eq_ok compiled
    obtain rfl : properties = registry.declared name := by
      rw [declared_eq registered ownFound]
      exact propertiesOf_eq_ok propertiesFound
    exact keys_of_modelProperties compiledProperties

/-- A key that is added to an entity, as a property of its model. -/
def IsKeyColumn (registry : Registry) (holder : String) (artifact : String × PropertyArtifacts) :
    Prop :=
  ∃ fields column, registry.AddsKey holder artifact.1 fields ∧
    Column.ofSchema (.obj fields) none = .ok column ∧ artifact.2 = .column column

/-- A model with what it has as the registry is given, with the keys of some names, and perhaps with
more keys. -/
structure WithKeys (registry : Registry) (keys : List String) (given made : Model) : Prop where
  name : made.name = given.name
  has : ∀ artifact ∈ given.artifacts, artifact ∈ made.artifacts
  only : ∀ artifact ∈ made.artifacts,
    artifact ∈ given.artifacts ∨ registry.IsKeyColumn given.name artifact
  keys : ∀ property ∈ keys, made.hasProperty property = true

/-- Keywords other than those that something is added to say what they said. -/
theorem OwnDressed.silent {added : Additions} (same : OwnDressed added own other) :
    ∀ keyword, keyword ∉ ["type", "properties", "x-backrefs"] →
      Keyed.get? other.fields keyword = Keyed.get? own.fields keyword := by
  intro keyword notExcepted
  simp only [List.mem_cons, List.not_mem_nil, or_false, not_or] at notExcepted
  obtain ⟨notType, notProperties, notBackrefs⟩ := notExcepted
  rw [same.2.2.2 keyword (by simp [notType, notBackrefs]),
    Additions.valueOver_of_silent _ notType notProperties notBackrefs]

section Models

variable (moment : base.Moment additions registry) (keyed : base.WellKeyed)
  (settled : base.KeysSettled) (agree : base.KeysAgree) (registered : base.get? name = some schema)
  (ownFound : base.ownSchema name schema = .ok own)
  (isGathered : base.gatherAll (base.declared name) = .ok gathered)

include moment keyed settled agree registered ownFound isGathered

omit keyed in
/-- The keys that an entity has got by a moment become columns. -/
theorem Moment.exists_keyProperties : ∃ properties,
    modelProperties registry (requiredOf own.fields) gathered (additions name).keyProperties =
      .ok properties ∧
    (∀ artifact ∈ artifactsOf properties, ∃ key ∈ (additions name).keys, ∃ column,
      artifact.1 = key.1 ∧ Column.ofSchema (.obj key.2) none = .ok column ∧
        artifact.2 = .column column) ∧
    ∀ key ∈ (additions name).keys, key.1 ∈ Keyed.keys (artifactsOf properties) := by
  have apart := moment.admits.keysApart settled
  refine modelProperties_keys fun key member => ?_
  have adds := moment.admits.keys name key member
  refine ⟨apart.schemas name key member, adds.isMissing.isColumn,
    agree.notRequired _ _ _ _ _ adds registered ownFound, fun inGathered => ?_⟩
  exact apart.fresh name key member (keys_of_gatherAll isGathered _ inGathered)

/-- At every moment the model of an entity is the one that it has as the registry is given, with the
keys that it has got. -/
theorem Moment.model_alike
    (otherFound : registry.ownSchema name ((additions name).apply schema) = .ok other) :
    Alike (fun given made => base.WithKeys (Keyed.keys (additions name).keys) given made ∧
        made.backrefs = backrefsIn other.fields)
      (Compilation.model base name tablename own.parent gathered own.fields)
      (Compilation.model registry name tablename own.parent gathered other.fields) := by
  obtain ⟨_, -, -, isOther, same, propertiesOther, -⟩ :=
    moment.exists_ownSchema keyed settled registered ownFound
  obtain rfl := Except.ok.inj (otherFound.symm.trans isOther)
  have propertiesOwn : Compilation.propertiesOf own.fields = .ok (base.declared name) := by
    rw [declared_eq registered ownFound]
    exact propertiesOf_of_isFields (Dresses.isFields_own keyed settled registered ownFound)
  have declared : Alike (fun properties others => artifactsOf properties = artifactsOf others)
      (modelProperties base (requiredOf own.fields) gathered (base.declared name))
      (modelProperties registry (requiredOf own.fields) gathered (base.declared name)) :=
    modelProperties_alike moment.dresses keyed (moment.admits.typed settled)
      (isWellKeyed_declared keyed registered ownFound)
  obtain ⟨keyProperties, compiledKeys, areKeys, all⟩ :=
    moment.exists_keyProperties settled agree registered ownFound isGathered
  have properties : Alike (fun properties others => artifactsOf others =
        artifactsOf properties ++ artifactsOf keyProperties)
      (Compilation.propertiesOf own.fields >>= modelProperties base (requiredOf own.fields) gathered)
      (Compilation.propertiesOf other.fields >>=
        modelProperties registry (requiredOf own.fields) gathered) := by
    rw [propertiesOwn, propertiesOther, ok_bind, ok_bind, modelProperties_append, compiledKeys]
    refine declared.bind_right fun properties others _ sameArtifacts => .ok ?_
    rw [sameArtifacts, artifactsOf, List.map_append]
    rfl
  refine (Compilation.model_alike same.silent properties).mono fun given made facts => ?_
  obtain ⟨givenName, artifacts, isMade⟩ := facts
  have madeName : made.name = given.name := by rw [isMade]
  have backrefs : made.backrefs = backrefsIn other.fields := by rw [isMade]
  refine ⟨⟨madeName, fun artifact member => ?_, fun artifact member => ?_,
    fun property isKey => ?_⟩, backrefs⟩
  · rw [Model.artifacts, artifacts]
    exact List.mem_append_left _ member
  · rw [Model.artifacts, artifacts] at member
    rcases List.mem_append.mp member with isGiven | isKey
    · exact .inl isGiven
    · obtain ⟨key, inKeys, column, sameName, isColumn, isArtifact⟩ := areKeys artifact isKey
      have adds := moment.admits.keys name key inKeys
      rw [givenName]
      exact .inr ⟨key.2, column, sameName ▸ adds, isColumn, isArtifact⟩
  · obtain ⟨key, inKeys, rfl⟩ := List.mem_map.mp isKey
    rw [Model.hasProperty_iff, Model.artifacts, artifacts, Keyed.keys, List.map_append]
    exact List.mem_append_right _ (all key inKeys)

end Models

end Registry

end EntityMapping
