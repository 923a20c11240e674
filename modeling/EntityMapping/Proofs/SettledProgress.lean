import EntityMapping.Proofs.AgreedTables
import EntityMapping.Proofs.GivenModels
import EntityMapping.Proofs.RepeatedRuns

/-!
Progress of a compilation of a registry with settled keys that agree. At every moment the registry
and the models are the given ones, with keys, and the tables are tables that relationships need. A
relationship can be linked if it can be as the registry is given; once it is linked, its key or its
table is there for the rest of the run.
-/

set_option autoImplicit false
set_option relaxedAutoImplicit false

namespace EntityMapping

open Registry (Moment Later EnsuresAt KeyThere WithKeys)

namespace Registry

variable {registry base one two : Registry} {name : String} {schema : Json}
  {additions more : String → Additions}

/-- The back references that an entity has in its own schema. -/
def backrefsOf (registry : Registry) (name : String) : Keyed Json :=
  match registry.registered name >>= registry.ownSchema name with
  | .ok own => backrefsIn own.fields
  | .error _ => []

theorem backrefsOf_eq {own : OwnSchema} (entry : registry.get? name = some schema)
    (found : registry.ownSchema name schema = .ok own) :
    registry.backrefsOf name = backrefsIn own.fields := by
  rw [backrefsOf, registered_eq_ok.mpr entry, ok_bind, found]

/-- An entity has the same back references at moments at which the same have been added. -/
theorem Moment.backrefsOf (first : base.Moment additions one) (second : base.Moment more two)
    (keyed : base.WellKeyed) (settled : base.KeysSettled) (same : SameBackrefs additions more)
    (name key : String) :
    Keyed.get? (one.backrefsOf name) key = Keyed.get? (two.backrefsOf name) key := by
  cases registered : base.get? name with
  | none =>
    have absent : ∀ {registry : Registry} {additions}, base.Moment additions registry →
        registry.backrefsOf name = [] := by
      intro registry additions moment
      have noEntry : registry.get? name = none := by rw [moment.get?, registered, Option.map_none]
      simp [Registry.backrefsOf, Registry.registered, noEntry]
    rw [absent first, absent second]
  | some schema =>
  have entry : ∀ {registry : Registry} {additions}, base.Moment additions registry →
      registry.get? name = some ((additions name).apply schema) := by
    intro registry additions moment
    rw [moment.get?, registered, Option.map_some]
  have ownOne := first.ownSchema keyed settled registered
  have ownTwo := second.ownSchema keyed settled registered
  cases ownFound : base.ownSchema name schema with
  | error e =>
    have failed : ∀ {registry : Registry} {additions}, base.Moment additions registry →
        registry.backrefsOf name = [] := by
      intro registry additions moment
      have own := moment.ownSchema keyed settled registered
      rw [ownFound] at own
      generalize outcome : registry.ownSchema name ((additions name).apply schema) = above at own
      cases own
      rw [Registry.backrefsOf, registered_eq_ok.mpr (entry moment), ok_bind, outcome]
    rw [failed first, failed second]
  | ok own =>
  rw [ownFound] at ownOne ownTwo
  obtain ⟨ownFirst, foundFirst, sameFirst, -⟩ := ownOne.of_ok_left
  obtain ⟨ownSecond, foundSecond, sameSecond, -⟩ := ownTwo.of_ok_left
  rw [backrefsOf_eq (entry first) foundFirst, backrefsOf_eq (entry second) foundSecond]
  obtain ⟨-, flat, flattened, isFlat⟩ := ownSchema_eq_ok.mp foundFirst
  obtain ⟨-, other, flattenedToo, isOther⟩ := ownSchema_eq_ok.mp foundSecond
  have alike : Alike (Corresponds "x-backrefs" SameFields)
      (one.flattenWithout own.parent name _) (two.flattenWithout own.parent name _) :=
    first.dresses.backrefs_alike second.dresses keyed same registered
  rw [← sameFirst.1] at flattened
  rw [← sameSecond.1] at flattenedToo
  rw [flattened, flattenedToo] at alike
  obtain ⟨_, isSame, -, -, -, sameFields⟩ := alike.of_ok_left
  obtain rfl := Except.ok.inj isSame
  rw [← isFlat, ← isOther]
  exact sameFields.get? key

/-- What a relationship needs can be told as the registry is given. -/
structure Linkable (registry : Registry) (entity : String) (relationship : Relationship) : Prop where
  key : relationship.cardinality.needsAssociationTable = false →
    ∃ requirement, registry.keyOf entity relationship = .ok requirement
  table : ∀ secondary, relationship.cardinality = .manyToMany secondary →
    ∃ table, registry.association secondary entity relationship.modelName = .ok table

/-- Tables of one name that relationships need have the same columns. -/
def TablesAgree (registry : Registry) : Prop :=
  ∀ table other, registry.NeedsTable table → registry.NeedsTable other →
    table.name = other.name → table.Twins other

end Registry

namespace Compilation

variable {base start : Registry} {first additions more most : String → Additions}
  {before middle after : Compilation} {entity name : String} {relationship : Relationship}

/-- What a run has made so far: the given registry and models with keys, and needed tables. -/
structure Progress (base start : Registry) (first additions : String → Additions)
    (state : Compilation) : Prop where
  moment : base.Moment additions state.registry
  backrefs : ∀ name, (first name).backrefs = (additions name).backrefs
  models : ∀ name model, ModelStore.get? state.store name = some model →
    ∃ given, base.modelOf? name = .ok (some given) ∧
      base.WithKeys (Keyed.keys (additions name).keys) given model ∧
      ∀ key, Keyed.get? model.backrefs key = Keyed.get? (start.backrefsOf name) key
  tables : ∀ table ∈ state.tables, base.NeedsTable table

/-- A run goes on from one state to another. -/
structure Ahead (additions more : String → Additions) (before after : Compilation) : Prop where
  later : Later before.Built additions more
  built : ∀ name, before.Built name → after.Built name
  properties : ∀ name property, ModelStore.hasProperty before.store name property = true →
    ModelStore.hasProperty after.store name property = true
  tables : before.tables <+: after.tables

namespace Ahead

theorem refl (additions : String → Additions) (state : Compilation) :
    Ahead additions additions state state :=
  ⟨.refl _ _, fun _ isBuilt => isBuilt, fun _ _ has => has, List.prefix_refl _⟩

theorem trans (one : Ahead additions more before middle) (two : Ahead more most middle after) :
    Ahead additions most before after where
  later := one.later.trans two.later one.built
  built name isBuilt := two.built name (one.built name isBuilt)
  properties name property has := two.properties name property (one.properties name property has)
  tables := one.tables.trans two.tables

theorem keyThere (ahead : Ahead additions more before after) {holder property : String}
    (isThere : KeyThere additions before.store holder property) :
    KeyThere more after.store holder property := by
  rcases isThere with written | has
  · obtain ⟨key, inKeys, rfl⟩ := List.mem_map.mp written
    have found : ∃ fields, Keyed.get? (additions holder).keys key.1 = some fields := by
      refine Option.ne_none_iff_exists'.mp fun absent => ?_
      exact (Keyed.get?_eq_none_iff _ _).mp absent written
    obtain ⟨fields, found⟩ := found
    exact .inl (Keyed.mem_keys_of_get? (ahead.later.keys _ _ _ found))
  · exact .inr (ahead.properties _ _ has)

end Ahead

/-- A table of the same name with the same columns has been collected. -/
def TableThere (state : Compilation) (table : AssociationTable) : Prop :=
  ∃ existing, state.tables.find? (fun other => other.name = table.name) = some existing ∧
    existing.isEquivalent table = true

/-- What a relationship needs is there. -/
structure Linked (base : Registry) (additions : String → Additions) (state : Compilation)
    (entity : String) (relationship : Relationship) : Prop where
  key : ∀ property schema key, relationship.cardinality.needsAssociationTable = false →
    base.keyOf entity relationship = .ok (.missing property schema key) →
    KeyThere additions state.store (relationship.holder entity) property
  table : ∀ secondary table, relationship.cardinality = .manyToMany secondary →
    base.association secondary entity relationship.modelName = .ok table → state.TableThere table

theorem TableThere.grown {table : AssociationTable} (isThere : before.TableThere table)
    (grown : before.tables <+: after.tables) : after.TableThere table := by
  obtain ⟨existing, found, equivalent⟩ := isThere
  obtain ⟨others, same⟩ := grown
  exact ⟨existing, by rw [← same, List.find?_append, found, Option.some_or], equivalent⟩

theorem Linked.ahead (linked : Linked base additions before entity relationship)
    (ahead : Ahead additions more before after) : Linked base more after entity relationship where
  key property schema key direct required :=
    ahead.keyThere (linked.key property schema key direct required)
  table secondary table joined found := (linked.table secondary table joined found).grown ahead.tables

section Keys

variable {registry next : Registry} {store stored : ModelStore}

theorem hasProperty_of_ensuresAt
    (ensures : base.EnsuresAt entity relationship additions registry store more next stored)
    {name property : String} (has : ModelStore.hasProperty store name property = true) :
    ModelStore.hasProperty stored name property = true := by
  cases ensures with
  | there => exact has
  | taken => exact has
  | written => exact has
  | attached =>
    rw [ModelStore.hasProperty, ModelStore.get?_attach]
    split
    · obtain ⟨model, found, hasHere⟩ := (Option.any_eq_true _ _).mp has
      rw [found, Option.map_some, Option.any_some, Model.hasProperty_addColumn, hasHere, Bool.true_or]
    · exact has

theorem isBuilt_of_ensuresAt
    (ensures : base.EnsuresAt entity relationship additions registry store more next stored)
    {name : String} (isBuilt : ModelStore.isBuilt store name = true) :
    ModelStore.isBuilt stored name = true := by
  cases ensures with
  | there => exact isBuilt
  | taken => exact isBuilt
  | written => exact isBuilt
  | attached =>
    rw [ModelStore.isBuilt, ModelStore.get?_attach]
    split
    · rw [Option.isSome_map]
      exact isBuilt
    · exact isBuilt

/-- The model of an entity is the one of its name. -/
theorem name_of_modelOf? {given : Model} (found : base.modelOf? name = .ok (some given)) :
    given.name = name := by
  rcases Registry.modelOf?_eq_ok.mp found with ⟨-, absent⟩ |
    ⟨schema, own, tablename, -, -, -, isModel⟩
  · cases absent
  · cases tablename with
    | none => cases isModel
    | some tablename =>
      obtain ⟨gathered, built, -, compiled, same⟩ := isModel
      obtain rfl := Option.some.inj same
      exact (model_eq_ok compiled).1

/-- A key that is attached to a model leaves all that the model has. -/
theorem withKeys_addColumn {given made : Model} {keys : List String} {property : String}
    {fields : Keyed Json} {column : Column} (withKeys : base.WithKeys keys given made)
    (adds : base.AddsKey given.name property fields)
    (isColumn : Column.ofSchema (.obj fields) none = .ok column) :
    base.WithKeys keys given (made.addColumn property (.obj fields) column) := by
  have artifacts : (made.addColumn property (.obj fields) column).artifacts =
      made.artifacts ++ [(property, .column column)] := by
    simp [Model.artifacts, artifactsOf, Model.addColumn]
  refine ⟨withKeys.name, fun artifact member => ?_, fun artifact member => ?_, fun key isKey => ?_⟩
  · rw [artifacts]
    exact List.mem_append_left _ (withKeys.has artifact member)
  · rw [artifacts] at member
    rcases List.mem_append.mp member with before | last
    · exact withKeys.only artifact before
    · obtain rfl := List.mem_singleton.mp last
      exact .inr ⟨fields, column, adds, isColumn, rfl⟩
  · rw [Model.hasProperty_addColumn, withKeys.keys key isKey, Bool.true_or]

end Keys

/-- Ensuring a key is progress. -/
theorem Progress.ensures (progress : Progress base start first additions before)
    (ensures : base.EnsuresAt entity relationship additions before.registry before.store more
      after.registry after.store) (next : base.Moment more after.registry)
    (sameTables : after.tables = before.tables) : Progress base start first more after := by
  have later := ensures.later
  refine ⟨next, fun name => (progress.backrefs name).trans (later.backrefs name), ?_, ?_⟩
  · generalize after.registry = registry at ensures
    generalize after.store = store at ensures ⊢
    intro name model found
    cases ensures with
    | there => exact progress.models name model found
    | taken => exact progress.models name model found
    | attached _ adds isColumn isBuilt _ =>
      rw [ModelStore.get?_attach] at found
      split at found
      · rename_i isHolder
        obtain ⟨earlier, foundEarlier, rfl⟩ := Option.map_eq_some_iff.mp found
        obtain ⟨given, isGiven, withKeys, backrefs⟩ := progress.models name earlier foundEarlier
        refine ⟨given, isGiven, withKeys_addColumn withKeys ?_ isColumn, backrefs⟩
        rw [name_of_modelOf? isGiven, isHolder]
        exact adds
      · exact progress.models name model found
    | written _ _ notBuilt elsewhere _ _ =>
      have other : name ≠ relationship.holder entity := by
        rintro rfl
        rw [ModelStore.isBuilt, found] at notBuilt
        cases notBuilt
      rw [elsewhere name other]
      exact progress.models name model found
  · rw [sameTables]
    exact progress.tables

/-- Collecting a table that a relationship needs is progress. -/
theorem Progress.addTable {table : AssociationTable}
    (progress : Progress base start first additions before) (needs : base.NeedsTable table)
    (added : (addTable table).runOn before = (.ok (), after)) :
    Progress base start first additions after ∧ Ahead additions additions before after ∧
      after.TableThere table := by
  rw [addTable_eq_ok] at added
  cases found : before.tables.find? fun existing => existing.name = table.name with
  | some existing =>
    rw [found] at added
    obtain ⟨equivalent, rfl⟩ := added
    exact ⟨progress, .refl _ _, existing, found, equivalent⟩
  | none =>
    rw [found] at added
    subst added
    refine ⟨⟨progress.moment, progress.backrefs, progress.models, fun other member => ?_⟩,
      ⟨.refl _ _, fun _ isBuilt => isBuilt, fun _ _ has => has, List.prefix_append _ _⟩, table, ?_, ?_⟩
    · rcases List.mem_append.mp member with earlier | last
      · exact progress.tables other earlier
      · exact List.mem_singleton.mp last ▸ needs
    · simp [List.find?_append, found]
    · exact (needs.isEquivalent_iff needs).mpr (.refl table)

theorem exists_addTable {table : AssociationTable}
    (progress : Progress base start first additions before) (tables : base.TablesAgree)
    (needs : base.NeedsTable table) :
    ∃ after, (Compilation.addTable table).runOn before = (.ok (), after) := by
  simp only [addTable_eq_ok]
  cases found : before.tables.find? fun existing => existing.name = table.name with
  | none => exact ⟨_, rfl⟩
  | some existing =>
    have needsToo := progress.tables existing (List.mem_of_find?_eq_some found)
    have sameName : existing.name = table.name := by simpa using List.find?_some found
    have twins := tables existing table needsToo needs sameName
    exact ⟨before, (needsToo.isEquivalent_iff needs).mpr twins, rfl⟩

section Link

variable (progress : Progress base start first additions before) (keyed : base.WellKeyed)
  (settled : base.KeysSettled) (agree : base.KeysAgree)

include progress keyed settled agree

/-- A relationship that is linked could be linked as the registry is given, and what it needs is
there afterwards. -/
theorem Progress.link (relates : base.Relates entity relationship)
    (linked : (link entity relationship).runOn before = (.ok (), after)) :
    ∃ more, Progress base start first more after ∧ Ahead additions more before after ∧
      base.Linkable entity relationship ∧ Linked base more after entity relationship := by
  by_cases direct : relationship.cardinality.needsAssociationTable = false
  · have notJoined := Cardinality.not_joined_of_direct direct
    rw [link_direct direct] at linked
    obtain ⟨ensured, sameTables⟩ := addForeignKey_eq_ok.mp linked
    obtain ⟨more, next, ensures⟩ := progress.moment.ensuresAt keyed settled relates direct ensured
    obtain ⟨requirement, required, -⟩ := bind_eq_ok.mp ensured
    have linkable := (progress.moment.exists_keyOf_iff keyed settled agree relates direct).mp
      ⟨requirement, required⟩
    have ahead : Ahead additions more before after :=
      ⟨ensures.later, fun name => isBuilt_of_ensuresAt ensures, fun name property =>
        hasProperty_of_ensuresAt ensures, by rw [sameTables]⟩
    refine ⟨more, progress.ensures ensures next sameTables, ahead, ?_, ?_⟩
    · exact ⟨fun _ => linkable, fun secondary joined => absurd joined (notJoined secondary)⟩
    · exact ⟨fun property schema key _ required =>
        ensures.keyThere progress.moment keyed settled agree relates direct required,
        fun secondary table joined => absurd joined (notJoined secondary)⟩
  · obtain ⟨secondary, joined⟩ := Cardinality.joined_of_not_direct direct
    obtain ⟨table, found, added⟩ := (link_joined joined).mp linked
    have moment := progress.moment
    have asGiven := (moment.dresses.association keyed settled moment.admits).mp found
    have needs : base.NeedsTable table := ⟨entity, relationship, secondary, relates, joined, asGiven⟩
    obtain ⟨next, ahead, isThere⟩ := progress.addTable needs added
    have sameSecondary : ∀ another, relationship.cardinality = .manyToMany another →
        another = secondary := by
      intro another joinedToo
      exact Cardinality.manyToMany.inj (joinedToo.symm.trans joined)
    refine ⟨additions, next, ahead, ⟨fun isDirect => absurd isDirect direct, ?_⟩,
      ⟨fun _ _ _ isDirect => absurd isDirect direct, ?_⟩⟩
    · intro another joinedToo
      obtain rfl := sameSecondary another joinedToo
      exact ⟨table, asGiven⟩
    · intro another other joinedToo foundToo
      obtain rfl := sameSecondary another joinedToo
      obtain rfl := Except.ok.inj (asGiven.symm.trans foundToo)
      exact isThere

/-- A relationship that can be linked as the registry is given is linked. -/
theorem Progress.exists_link (tables : base.TablesAgree) (relates : base.Relates entity relationship)
    (linkable : base.Linkable entity relationship) :
    ∃ after, (Compilation.link entity relationship).runOn before = (.ok (), after) := by
  have moment := progress.moment
  by_cases direct : relationship.cardinality.needsAssociationTable = false
  · obtain ⟨requirement, required⟩ := linkable.key direct
    obtain ⟨next, stored, ensured⟩ := moment.exists_ensureForeignKey keyed settled agree relates direct
      required before.store
    rw [link_direct direct]
    exact ⟨{ before with registry := next, store := stored },
      addForeignKey_eq_ok.mpr ⟨ensured, rfl⟩⟩
  · obtain ⟨secondary, joined⟩ := Cardinality.joined_of_not_direct direct
    obtain ⟨table, found⟩ := linkable.table secondary joined
    obtain ⟨after, added⟩ :=
      exists_addTable progress tables ⟨entity, relationship, secondary, relates, joined, found⟩
    have foundHere := (moment.dresses.association keyed settled moment.admits).mpr found
    exact ⟨after, (link_joined joined).mpr ⟨table, foundHere, added⟩⟩

variable {properties : Keyed Json} {gathered : Keyed Relationship}

omit agree in
/-- What a property is can be told from the registry as it is given. -/
theorem Progress.gather? {property : String} {schema : Json} (whole : schema.isWellKeyed = true) :
    before.registry.gather? property schema = base.gather? property schema :=
  progress.moment.dresses.gather? keyed (progress.moment.admits.typed settled) property whole

/-- A property is linked as what the registry as it is given says that it is. -/
theorem Progress.linkProperty {property : String} {schema : Json} {found : Option Relationship}
    (whole : schema.isWellKeyed = true)
    (relates : ∀ relationship, base.gather? property schema = .ok (some relationship) →
      base.Relates entity relationship)
    (linked : (linkProperty entity property schema).runOn before = (.ok found, after)) :
    base.gather? property schema = .ok found ∧
      ∃ more, Progress base start first more after ∧ Ahead additions more before after ∧
        ∀ relationship, found = some relationship →
          base.Linkable entity relationship ∧ Linked base more after entity relationship := by
  obtain ⟨isGathered, linked⟩ := linkProperty_eq_ok.mp linked
  rw [progress.gather? keyed settled whole] at isGathered
  refine ⟨isGathered, ?_⟩
  cases found with
  | none =>
    obtain rfl := linked
    exact ⟨additions, progress, .refl _ _, fun _ isSome => (by cases isSome)⟩
  | some relationship =>
    obtain ⟨more, next, ahead, linkable, isLinked⟩ :=
      progress.link keyed settled agree (relates relationship isGathered) linked
    refine ⟨more, next, ahead, fun other isSome => ?_⟩
    obtain rfl := Option.some.inj isSome
    exact ⟨linkable, isLinked⟩

/-- Relationships that are linked are those that the registry as it is given has, and what they need
is there afterwards. -/
theorem Progress.linkProperties (whole : ∀ field ∈ properties, field.2.isWellKeyed = true)
    (relates : ∀ field ∈ properties, ∀ relationship,
      base.gather? field.1 field.2 = .ok (some relationship) → base.Relates entity relationship)
    (linked : (linkProperties entity properties).runOn before = (.ok gathered, after)) :
    base.gatherAll properties = .ok gathered ∧
      ∃ more, Progress base start first more after ∧ Ahead additions more before after ∧
        ∀ field ∈ properties, ∀ relationship,
          base.gather? field.1 field.2 = .ok (some relationship) →
          base.Linkable entity relationship ∧ Linked base more after entity relationship := by
  induction properties generalizing before gathered additions with
  | nil =>
    obtain ⟨same, rfl⟩ := Prod.mk.inj linked
    obtain rfl := Except.ok.inj same
    exact ⟨rfl, additions, progress, .refl _ _, by simp⟩
  | cons field rest ih =>
    obtain ⟨property, schema⟩ := field
    obtain ⟨found, middle, others, here, later, rfl⟩ := linkProperties_cons_eq_ok.mp linked
    obtain ⟨isGathered, more, next, ahead, linkedHere⟩ := progress.linkProperty keyed settled agree
      (whole _ List.mem_cons_self) (relates _ List.mem_cons_self) here
    obtain ⟨gatheredRest, even, done, aheadStill, linkedRest⟩ := ih next
      (fun field member => whole field (.tail _ member))
      (fun field member => relates field (.tail _ member)) later
    refine ⟨?_, even, done, ahead.trans aheadStill, ?_⟩
    · rw [Registry.gatherAll, isGathered, ok_bind, gatheredRest]
      rfl
    · rw [List.forall_mem_cons]
      refine ⟨fun relationship isRelationship => ?_, linkedRest⟩
      obtain ⟨linkable, isLinked⟩ :=
        linkedHere relationship (Except.ok.inj (isGathered.symm.trans isRelationship))
      exact ⟨linkable, isLinked.ahead aheadStill⟩

/-- Relationships that can be linked as the registry is given are linked. -/
theorem Progress.exists_linkProperties (tables : base.TablesAgree)
    (whole : ∀ field ∈ properties, field.2.isWellKeyed = true)
    (relates : ∀ field ∈ properties, ∀ relationship,
      base.gather? field.1 field.2 = .ok (some relationship) → base.Relates entity relationship)
    (linkable : ∀ relationship, base.Relates entity relationship →
      base.Linkable entity relationship)
    (isGathered : base.gatherAll properties = .ok gathered) :
    ∃ after, (Compilation.linkProperties entity properties).runOn before = (.ok gathered, after) := by
  induction properties generalizing before gathered additions with
  | nil => exact ⟨before, by rw [← Except.ok.inj isGathered]; rfl⟩
  | cons field rest ih =>
    obtain ⟨property, schema⟩ := field
    obtain ⟨found, foundHere, isGathered⟩ := bind_eq_ok.mp isGathered
    obtain ⟨others, foundRest, isGathered⟩ := bind_eq_ok.mp isGathered
    obtain rfl := Except.ok.inj isGathered
    have wholeHere := whole _ List.mem_cons_self
    have relatesHere := relates _ List.mem_cons_self
    obtain ⟨middle, linked⟩ : ∃ middle,
        (Compilation.linkProperty entity property schema).runOn before = (.ok found, middle) := by
      have gatheredHere := (progress.gather? keyed settled wholeHere).trans foundHere
      cases found with
      | none => exact ⟨before, linkProperty_eq_ok.mpr ⟨gatheredHere, rfl⟩⟩
      | some relationship =>
        have isRelated := relatesHere relationship foundHere
        obtain ⟨middle, linked⟩ := progress.exists_link keyed settled agree tables isRelated
          (linkable relationship isRelated)
        exact ⟨middle, linkProperty_eq_ok.mpr ⟨gatheredHere, linked⟩⟩
    obtain ⟨-, more, next, -⟩ :=
      progress.linkProperty keyed settled agree wholeHere relatesHere linked
    obtain ⟨after, linkedRest⟩ := ih next (fun field member => whole field (.tail _ member))
      (fun field member => relates field (.tail _ member)) foundRest
    exact ⟨after, linkProperties_cons_eq_ok.mpr ⟨found, middle, others, linked, linkedRest, rfl⟩⟩

end Link

end Compilation

end EntityMapping
