import EntityMapping.Proofs.AddedKeys

/-!
Moments of a compilation of a registry with settled keys. At every moment the registry is the one
that the compilation began with, with back references and with some of the keys. Ensuring a foreign
key asks the registry as it was given, and which keys the holder has got; at a later moment, where
the key is there, ensuring it again changes nothing but the models, and these as before.
-/

set_option autoImplicit false
set_option relaxedAutoImplicit false

namespace EntityMapping

open Keyed (Distinct)
open ForeignKey (Requirement IsKeySchema)

namespace Registry

variable {registry base next final : Registry} {target owning column property entity : String}
  {nullable : Option Bool} {keys others : Keyed (Keyed Json)} {fields : Keyed Json} {key : Column}
  {schema : Json} {store after : ModelStore} {relationship : Relationship}
  {additions more most : String → Additions}

section Requirement

/-- A key that is missing is missing in the registry as it is given, and the holder has not got it. -/
theorem requirement_missing
    (required : base.requirement keys target owning column nullable =
      .ok (.missing property schema key)) :
    base.foreignKey target owning column nullable = .ok (.missing property schema key) ∧
      Keyed.get? keys property = none := by
  obtain ⟨own, ownFound, required⟩ := bind_eq_ok.mp required
  obtain ⟨source, sourceFound, required⟩ := bind_eq_ok.mp required
  dsimp only at required
  cases found : Keyed.get? keys (source.property column) with
  | some fields =>
    rw [found] at required
    obtain ⟨-, -, same⟩ := checkExistingKey_eq_ok.mp required
    cases same
  | none =>
    rw [found] at required
    obtain ⟨existing, propertyFound, required⟩ := bind_eq_ok.mp required
    cases existing with
    | some existing =>
      obtain ⟨-, -, same⟩ := checkExistingKey_eq_ok.mp required
      cases same
    | none =>
      obtain ⟨fields, other, same, -, -⟩ := missingKey_eq_ok required
      obtain ⟨rfl, rfl, rfl⟩ := Requirement.missing.inj same
      exact ⟨foreignKey_eq_missing.mpr
        ⟨own, source, ownFound, sourceFound, rfl, propertyFound, required⟩, found⟩

/-- A key that is there is there also when the holder has got more keys that it did not declare. -/
theorem requirement_of_more
    (required : base.requirement keys target owning column nullable = .ok (.satisfied property))
    (grown : ∀ property fields, Keyed.get? keys property = some fields →
      Keyed.get? others property = some fields)
    (fresh : ∀ property ∈ Keyed.keys others, property ∉ Keyed.keys (base.declared target)) :
    base.requirement others target owning column nullable = .ok (.satisfied property) := by
  obtain ⟨own, ownFound, required⟩ := bind_eq_ok.mp required
  obtain ⟨source, sourceFound, required⟩ := bind_eq_ok.mp required
  rw [requirement, ownFound, ok_bind, sourceFound, ok_bind]
  dsimp only at required ⊢
  cases found : Keyed.get? keys (source.property column) with
  | some fields =>
    rw [found] at required
    rw [grown _ _ found]
    exact required
  | none =>
    rw [found] at required
    obtain ⟨existing, propertyFound, required⟩ := bind_eq_ok.mp required
    cases existing with
    | none =>
      obtain ⟨fields, other, same, -, -⟩ := missingKey_eq_ok required
      cases same
    | some existing =>
      have notGot : Keyed.get? others (source.property column) = none := by
        rw [Keyed.get?_eq_none_iff]
        intro member
        obtain ⟨schema, isEntry, found⟩ := bind_eq_ok.mp ownFound
        have absent := (not_declared_of_flatProperty? (registered_eq_ok.mp isEntry) found).mpr
          (fresh _ member)
        cases absent.symm.trans propertyFound
      rw [notGot]
      dsimp only
      rw [propertyFound, ok_bind]
      exact required

/-- A key that was missing is there once the holder has got it. -/
theorem requirement_of_added
    (required : base.foreignKey target owning column nullable =
      .ok (.missing property (.obj fields) key))
    (added : Keyed.get? keys property = some fields) :
    base.requirement keys target owning column nullable = .ok (.satisfied property) := by
  obtain ⟨own, source, ownFound, sourceFound, rfl, -, missing⟩ := foreignKey_eq_missing.mp required
  obtain ⟨fields', other, same, isKey, -⟩ := missingKey_eq_ok missing
  obtain ⟨-, sameFields, rfl⟩ := Requirement.missing.inj same
  obtain rfl := Json.obj.inj sameFields
  rw [requirement, ownFound, ok_bind, sourceFound, ok_bind]
  dsimp only
  rw [added]
  exact checkExistingKey_eq_ok.mpr
    ⟨isKey.typeText, KeywordReader.text?_of_str isKey.pointsAt, rfl⟩

/-- A key that is missing in the registry as it is given is missing as long as the holder has not got
it. -/
theorem requirement_of_missing
    (required : base.foreignKey target owning column nullable =
      .ok (.missing property schema key)) (absent : Keyed.get? keys property = none) :
    base.requirement keys target owning column nullable = .ok (.missing property schema key) := by
  obtain ⟨own, source, ownFound, sourceFound, rfl, propertyFound, missing⟩ :=
    foreignKey_eq_missing.mp required
  rw [requirement, ownFound, ok_bind, sourceFound, ok_bind]
  dsimp only
  rw [absent]
  dsimp only
  rw [propertyFound, ok_bind]
  exact missing

end Requirement

/-- The registry at some moment of a compilation: back references and keys have been added to the
one that it began with. -/
structure Moment (base : Registry) (additions : String → Additions) (registry : Registry) :
    Prop where
  dresses : base.Dresses additions registry
  admits : base.Admits additions

/-- What has been added at a moment and at a later one. Keys are added only, and none to an entity
whose model has been built. -/
structure Later (built : String → Prop) (first second : String → Additions) : Prop where
  backrefs : ∀ name, (first name).backrefs = (second name).backrefs
  keys : ∀ name property fields, Keyed.get? (first name).keys property = some fields →
    Keyed.get? (second name).keys property = some fields
  built : ∀ name, built name → first name = second name

namespace Later

variable {built more : String → Prop} {first second third : String → Additions}

theorem refl (built : String → Prop) (first : String → Additions) : Later built first first :=
  ⟨fun _ => rfl, fun _ _ _ found => found, fun _ _ => rfl⟩

theorem trans (one : Later built first second) (two : Later more second third)
    (wider : ∀ name, built name → more name) : Later built first third where
  backrefs name := (one.backrefs name).trans (two.backrefs name)
  keys _ _ _ found := two.keys _ _ _ (one.keys _ _ _ found)
  built name isBuilt := (one.built name isBuilt).trans (two.built name (wider name isBuilt))

end Later

theorem AddsKey.isKeySchema (adds : base.AddsKey target property fields) :
    ∃ type pointsAt, IsKeySchema fields type pointsAt ∧ type.isScalar = true :=
  adds.isMissing.isKeySchema

/-- The column of a key that is missing is what its schema says. -/
theorem ofSchema_of_foreignKey (required : base.foreignKey target owning column nullable =
    .ok (.missing property schema key)) : Column.ofSchema schema none = .ok key := by
  obtain ⟨own, source, -, -, rfl, -, missing⟩ := foreignKey_eq_missing.mp required
  obtain ⟨fields, other, same, -, built⟩ := missingKey_eq_ok missing
  obtain ⟨-, rfl, rfl⟩ := Requirement.missing.inj same
  exact built

/-- What the foreign key of a relationship of an entity needs, in the registry as it is given. -/
def keyOf (registry : Registry) (entity : String) (relationship : Relationship) :
    Except SchemaError Requirement :=
  registry.foreignKey (relationship.holder entity) (relationship.owning entity)
    relationship.foreignKeyColumn relationship.keyNullable

/-- A key has been written into the registry, or the model of its holder has a property of its
name. -/
def KeyThere (additions : String → Additions) (store : ModelStore) (holder property : String) :
    Prop :=
  property ∈ Keyed.keys (additions holder).keys ∨
    ModelStore.hasProperty store holder property = true

theorem Relates.addsKey (relates : base.Relates entity relationship)
    (direct : relationship.cardinality.needsAssociationTable = false)
    (required : base.keyOf entity relationship = .ok (.missing property schema key)) :
    ∃ fields, schema = .obj fields ∧ base.AddsKey (relationship.holder entity) property fields := by
  obtain ⟨fields, rfl, -⟩ := isMissing_of_foreignKey required
  exact ⟨fields, rfl, entity, relationship, key, relates, direct, rfl, required⟩

namespace Moment

variable (moment : base.Moment additions registry) (keyed : base.WellKeyed)
  (settled : base.KeysSettled)

include moment

theorem get? (name : String) : registry.get? name = (base.get? name).map (additions name).apply :=
  moment.dresses.get? name

include settled in
theorem fresh (target : String) : ∀ property ∈ Keyed.keys (additions target).keys,
    property ∉ Keyed.keys (base.declared target) := by
  intro property member
  obtain ⟨pair, inKeys, rfl⟩ := List.mem_map.mp member
  exact (moment.admits.keysApart settled).fresh target pair inKeys

include settled in
/-- A key that is written into the registry leads to another moment. -/
theorem write (adds : base.AddsKey target property fields)
    (absent : Keyed.get? (additions target).keys property = none)
    (entry : registry.get? target = some schema) :
    ∃ more, base.Moment more
        (registry.insert target (wrap schema (propertyFragment property (.obj fields)))) ∧
      (∀ name, name ≠ target → more name = additions name) ∧
      (more target).backrefs = (additions target).backrefs ∧
      (more target).keys = (additions target).keys ++ [(property, fields)] := by
  obtain ⟨original, -, registered, noReference, -⟩ := settled.entities _ _ _ adds
  obtain ⟨type, pointsAt, isKey, -⟩ := adds.isKeySchema
  have fresh := (Keyed.get?_eq_none_iff _ _).mp absent
  let added := (additions target).addKey property fields fresh ⟨pointsAt, isKey.pointsAt⟩
  have dressed := moment.dresses.insert registered noReference added
  have isSchema : schema = (additions target).apply original := by
    rw [moment.get?, registered, Option.map_some] at entry
    exact (Option.some.inj entry).symm
  have wrapped : added.apply original =
      wrap schema (propertyFragment property (.obj fields)) := by
    rw [isSchema]
    exact (additions target).apply_addKey fresh ⟨pointsAt, isKey.pointsAt⟩ original
  refine ⟨_, ⟨wrapped ▸ dressed, ⟨?_, ?_, ?_⟩⟩, fun name other => if_neg other, ?_, ?_⟩
  · intro name isSome
    by_cases same : name = target
    · subst same
      exact settled.entities _ _ _ adds
    · rw [if_neg same] at isSome
      exact moment.admits.objects name isSome
  · intro name backrefs isSome
    by_cases same : name = target
    · subst same
      rw [if_pos rfl] at isSome
      exact moment.admits.distinct name backrefs isSome
    · rw [if_neg same] at isSome
      exact moment.admits.distinct name backrefs isSome
  · intro name pair member
    by_cases same : name = target
    · subst same
      rw [if_pos rfl] at member
      rcases List.mem_append.mp member with before | last
      · exact moment.admits.keys name pair before
      · rw [List.mem_singleton.mp last]
        exact adds
    · rw [if_neg same] at member
      exact moment.admits.keys name pair member
  · rw [if_pos rfl]
    rfl
  · rw [if_pos rfl]
    rfl

include keyed settled in
theorem foreignKey (relates : base.Relates entity relationship) (target owning : String)
    (nullable : Option Bool) :
    registry.foreignKey target owning relationship.foreignKeyColumn nullable =
      base.requirement (additions target).keys target owning relationship.foreignKeyColumn
        nullable := by
  refine moment.dresses.foreignKey keyed settled moment.admits target owning nullable ?_
  exact fun holder fields adds => settled.pointing _ _ _ _ _ adds relates rfl

include keyed settled in
theorem keyOf (relates : base.Relates entity relationship) :
    registry.keyOf entity relationship =
      base.requirement (additions (relationship.holder entity)).keys (relationship.holder entity)
        (relationship.owning entity) relationship.foreignKeyColumn relationship.keyNullable :=
  moment.foreignKey keyed settled relates _ _ _

include keyed settled in
/-- At every moment an entity itself declares what it declared, and then the keys that it has got. -/
theorem ownSchema {name : String} (registered : base.get? name = some schema) :
    Alike (fun own other => OwnDressed (additions name) own other ∧
        base.declared name = propertiesIn own.fields ∧
        Compilation.propertiesOf other.fields =
          .ok (base.declared name ++ (additions name).keyProperties))
      (base.ownSchema name schema) (registry.ownSchema name ((additions name).apply schema)) := by
  have apart := moment.admits.keysApart settled
  have alike := moment.dresses.ownSchema_alike keyed apart registered
  generalize outcome : base.ownSchema name schema = below at alike ⊢
  generalize registry.ownSchema name ((additions name).apply schema) = above at alike ⊢
  cases alike with
  | error e => exact .error e
  | @ok own other same =>
    have found := outcome
    have declared := declared_eq registered found
    have fresh := apart.fresh name
    rw [declared] at fresh
    refine .ok ⟨same, declared, ?_⟩
    rw [declared, ← same.propertiesIn fresh]
    refine Compilation.propertiesOf_of_isFields ?_
    rw [same.2.2.2 _ (by decide)]
    exact (Dresses.isFields_own keyed settled registered found).valueOver

include keyed settled in
/-- What belongs to an entity itself at a moment, where it can be told as the registry is given. -/
theorem exists_ownSchema {name : String} {own : OwnSchema} (registered : base.get? name = some schema)
    (ownFound : base.ownSchema name schema = .ok own) :
    ∃ other flat, registry.get? name = some ((additions name).apply schema) ∧
      registry.ownSchema name ((additions name).apply schema) = .ok other ∧
      OwnDressed (additions name) own other ∧
      Compilation.propertiesOf other.fields =
        .ok (base.declared name ++ (additions name).keyProperties) ∧
      registry.flattenWithout own.parent name ((additions name).apply schema) = .ok flat ∧
      flat.fields = other.fields := by
  have owns := moment.ownSchema keyed settled registered
  rw [ownFound] at owns
  obtain ⟨other, otherFound, same, -, properties⟩ := owns.of_ok_left
  obtain ⟨-, flat, flattened, sameFields⟩ := ownSchema_eq_ok.mp otherFound
  rw [← same.1] at flattened
  have entry : registry.get? name = some ((additions name).apply schema) := by
    rw [moment.get?, registered, Option.map_some]
  exact ⟨other, flat, entry, otherFound, same, properties, flattened, sameFields⟩

end Moment

/-- What ensuring the foreign key of a relationship does at a moment, where it succeeds. -/
inductive EnsuresAt (base : Registry) (entity : String) (relationship : Relationship)
    (additions : String → Additions) (registry : Registry) (store : ModelStore) :
    (String → Additions) → Registry → ModelStore → Prop
  /-- The holder has the key already. -/
  | there {property : String} :
      registry.keyOf entity relationship = .ok (.satisfied property) →
      EnsuresAt base entity relationship additions registry store additions registry store
  /-- The model of the holder has a property of that name. -/
  | taken {property : String} {fields : Keyed Json} {key : Column} :
      registry.keyOf entity relationship = .ok (.missing property (.obj fields) key) →
      ModelStore.isBuilt store (relationship.holder entity) = true →
      ModelStore.hasProperty store (relationship.holder entity) property = true →
      EnsuresAt base entity relationship additions registry store additions registry store
  /-- The model of the holder gets the key as a column. -/
  | attached {property : String} {fields : Keyed Json} {key : Column} :
      registry.keyOf entity relationship = .ok (.missing property (.obj fields) key) →
      base.AddsKey (relationship.holder entity) property fields →
      Column.ofSchema (.obj fields) none = .ok key →
      ModelStore.isBuilt store (relationship.holder entity) = true →
      ModelStore.hasProperty store (relationship.holder entity) property = false →
      EnsuresAt base entity relationship additions registry store additions registry
        (ModelStore.update (fun model => model.addColumn property (.obj fields) key)
          (relationship.holder entity) store)
  /-- The key is written into the registry. -/
  | written {property : String} {fields : Keyed Json} {key : Column} {schema : Json}
      {more : String → Additions} :
      base.keyOf entity relationship = .ok (.missing property (.obj fields) key) →
      Keyed.get? (additions (relationship.holder entity)).keys property = none →
      ModelStore.isBuilt store (relationship.holder entity) = false →
      (∀ name, name ≠ relationship.holder entity → more name = additions name) →
      (more (relationship.holder entity)).backrefs =
        (additions (relationship.holder entity)).backrefs →
      (more (relationship.holder entity)).keys =
        (additions (relationship.holder entity)).keys ++ [(property, fields)] →
      EnsuresAt base entity relationship additions registry store more
        (registry.insert (relationship.holder entity)
          (wrap schema (propertyFragment property (.obj fields)))) store

/-- Ensuring a key leads to a moment. -/
theorem Moment.ensuresAt (moment : base.Moment additions registry) (keyed : base.WellKeyed)
    (settled : base.KeysSettled) (relates : base.Relates entity relationship)
    (direct : relationship.cardinality.needsAssociationTable = false)
    (ensured : registry.ensureForeignKey store (relationship.holder entity)
      (relationship.owning entity) relationship.foreignKeyColumn relationship.keyNullable =
        .ok (next, after)) :
    ∃ more, base.Moment more next ∧
      base.EnsuresAt entity relationship additions registry store more next after := by
  obtain ⟨requirement, required, -⟩ := bind_eq_ok.mp ensured
  have asGiven : registry.keyOf entity relationship = .ok requirement := required
  rw [moment.keyOf keyed settled relates] at asGiven
  cases requirement with
  | satisfied property =>
    rw [ensureForeignKey_of_satisfied store required, Except.ok.injEq, Prod.mk.injEq] at ensured
    obtain ⟨rfl, rfl⟩ := ensured
    exact ⟨additions, moment, .there required⟩
  | missing property schema key =>
    obtain ⟨missing, absent⟩ := requirement_missing asGiven
    obtain ⟨fields, rfl, adds⟩ := relates.addsKey direct missing
    have built := ofSchema_of_foreignKey missing
    obtain ⟨entry, registered⟩ := exists_entry_of_foreignKey required
    rw [ensureForeignKey_of_missing store required registered, Except.ok.injEq] at ensured
    split at ensured
    · rename_i isBuilt
      obtain ⟨rfl, changed⟩ := Prod.mk.inj ensured
      refine ⟨additions, moment, ?_⟩
      split at changed
      · rename_i has
        exact changed ▸ .taken required isBuilt has
      · rename_i lacks
        exact changed ▸ .attached required adds built isBuilt (by simpa using lacks)
    · rename_i notBuilt
      obtain ⟨rfl, rfl⟩ := Prod.mk.inj ensured
      obtain ⟨more, isMoment, elsewhere, backrefs, keys⟩ :=
        moment.write settled adds absent registered
      exact ⟨more, isMoment,
        .written missing absent (by simpa using notBuilt) elsewhere backrefs keys⟩

namespace EnsuresAt

variable (ensures : base.EnsuresAt entity relationship additions registry store more next after)

include ensures

theorem later : Later (fun name => ModelStore.isBuilt store name = true) additions more := by
  cases ensures with
  | there => exact .refl _ _
  | taken => exact .refl _ _
  | attached => exact .refl _ _
  | written _ _ notBuilt elsewhere backrefs keys =>
    refine ⟨fun name => ?_, fun name property fields found => ?_, fun name isBuilt => ?_⟩
    · by_cases same : name = relationship.holder entity
      · rw [same, backrefs]
      · rw [elsewhere name same]
    · by_cases same : name = relationship.holder entity
      · subst same
        rw [keys, Keyed.get?_append, found, Option.some_or]
      · rw [elsewhere name same]
        exact found
    · have other : name ≠ relationship.holder entity := by
        rintro rfl
        cases notBuilt.symm.trans isBuilt
      exact (elsewhere name other).symm

/-- A key that has been ensured is there at every later moment. Ensuring it again then changes the
models as it did, and nothing else. -/
theorem again (keyed : base.WellKeyed) (settled : base.KeysSettled)
    (moment : base.Moment additions registry) (relates : base.Relates entity relationship)
    (last : base.Moment most final)
    (toLast : Later (fun name => ModelStore.isBuilt store name = true) more most) :
    final.ensureForeignKey store (relationship.holder entity) (relationship.owning entity)
      relationship.foreignKeyColumn relationship.keyNullable = .ok (final, after) := by
  have required := last.keyOf keyed settled relates
  -- a holder with a model gets no more keys, so what was missing is missing again
  have unchanged : ModelStore.isBuilt store (relationship.holder entity) = true →
      more = additions → final.keyOf entity relationship = registry.keyOf entity relationship := by
    rintro isBuilt rfl
    rw [required, moment.keyOf keyed settled relates, ← toLast.built _ isBuilt]
  cases ensures with
  | there satisfied =>
    rw [moment.keyOf keyed settled relates] at satisfied
    have still := requirement_of_more satisfied (toLast.keys _) (last.fresh settled _)
    exact ensureForeignKey_of_satisfied store (required.trans still)
  | taken missing isBuilt has =>
    have again := (unchanged isBuilt rfl).trans missing
    obtain ⟨entry, registered⟩ := exists_entry_of_foreignKey again
    rw [ensureForeignKey_of_missing store again registered, if_pos isBuilt, if_pos has]
  | attached missing _ _ isBuilt lacks =>
    have again := (unchanged isBuilt rfl).trans missing
    obtain ⟨entry, registered⟩ := exists_entry_of_foreignKey again
    simp [ensureForeignKey_of_missing store again registered, isBuilt, lacks]
  | @written property fields key schema _ missing absent _ _ _ keys =>
    have added : Keyed.get? (most (relationship.holder entity)).keys property = some fields := by
      refine toLast.keys _ _ _ ?_
      rw [keys, Keyed.get?_append, absent, Option.none_or, Keyed.get?_cons, if_pos rfl]
    exact ensureForeignKey_of_satisfied store (required.trans (requirement_of_added missing added))

end EnsuresAt

/-- What gets no keys has the same additions at two moments. -/
theorem Later.eq_of_keyless {built : String → Prop} {name : String}
    (later : Later built additions more) (first : base.Admits additions) (second : base.Admits more)
    (keyless : ∀ property fields, ¬ base.AddsKey name property fields) :
    additions name = more name := by
  have noKeys : ∀ {additions : String → Additions}, base.Admits additions →
      (additions name).keys = [] := fun admits =>
    List.eq_nil_iff_forall_not_mem.mpr fun key member => keyless _ _ (admits.keys name key member)
  have backrefs := later.backrefs name
  have keys := (noKeys first).trans (noKeys second).symm
  generalize additions name = one at backrefs keys ⊢
  generalize more name = two at backrefs keys ⊢
  cases one
  cases two
  simp_all

/-- What meets no entity that gets keys is flattened to the same at two moments. -/
theorem Later.flattenFrom_eq {built : String → Prop} {skip : Option String} {hops : Nat}
    {visited : List String} {name : String} (later : Later built additions more)
    (first : base.Moment additions registry) (second : base.Moment more final)
    (keyless : ∀ holder property fields, base.AddsKey holder property fields →
      ¬ base.Meets skip schema holder) :
    registry.flattenFrom skip hops visited name schema =
      final.flattenFrom skip hops visited name schema :=
  first.dresses.flattenFrom_congr second.dresses (fun entity meets =>
    later.eq_of_keyless first.admits second.admits fun property fields adds =>
      keyless entity property fields adds meets) (.self schema)

end Registry

end EntityMapping
