import EntityMapping.Proofs.Associations
import EntityMapping.Proofs.KeptTables
import EntityMapping.Proofs.Moments
import Mathlib

/-!
Names of models in what a registry compiles to. Models refer to other entities by name, as the
entities of their relationships and as their parents. An entity has a model exactly if its own
schema, without what it inherits, names a table; it can be referred to under weaker conditions.
-/

set_option autoImplicit false
set_option relaxedAutoImplicit false

namespace EntityMapping

namespace Registry

variable {registry : Registry} {name parent text : String} {wanted : Option String}
  {schema target : Json} {hops : Nat} {visited : List String}

/-- A reference that a schema is composed of leads to a schema of a name. -/
def LeadsTo (registry : Registry) (schema : Json) (name : String) (target : Json) : Prop :=
  ∃ text parsed, registry.ReachesReference schema text ∧ Reference.parse text = .ok parsed ∧
    registry.target text parsed = .ok (name, target)

/-- The parent that is found has the name that is wanted, or a table. -/
theorem searchParent_eq_some
    (found : registry.searchParent wanted hops visited schema = .ok (some parent)) :
    ∃ target, registry.LeadsTo schema parent target ∧
      (wanted = some parent ∨ wanted = none ∧
        ∃ tablename, (registry.keywords target).tablename? = .ok (some tablename)) := by
  induction hops using Nat.strongRecOn generalizing visited schema with
  | ind hops shorter =>
  unfold searchParent at found
  obtain ⟨text, member, found⟩ := exists_of_findSomeM? found
  have reached : registry.ReachesReference schema text := reachesReference_of_mem member
  obtain ⟨parsed, parse, found⟩ := bind_eq_ok.mp found
  obtain ⟨arrival, arrived, found⟩ := bind_eq_ok.mp found
  obtain ⟨isParent, isFound, found⟩ := bind_eq_ok.mp found
  obtain ⟨next, target, onChain⟩ := arrival
  obtain ⟨-, led, rfl⟩ := arrive_eq_ok.mp arrived
  cases isParent with
  | true =>
    obtain rfl := Option.some.inj (Except.ok.inj found)
    refine ⟨target, ⟨text, parsed, reached, parse, led⟩, ?_⟩
    cases wanted with
    | some name =>
      have same : next = name := by simpa [Registry.isParent] using isFound
      exact .inl (congrArg some same.symm)
    | none =>
      obtain ⟨tablename, named, isSome⟩ := bind_eq_ok.mp isFound
      obtain ⟨tablename, rfl⟩ := Option.isSome_iff_exists.mp (Except.ok.inj isSome)
      exact .inr ⟨rfl, tablename, named⟩
  | false =>
    cases hops with
    | zero => cases found
    | succ fewer =>
      obtain ⟨last, ⟨other, parsedOther, reachedOther, parseOther, ledOther⟩, holds⟩ :=
        shorter fewer (Nat.lt_succ_self _) found
      exact ⟨last, ⟨other, parsedOther, reached.trans parse led reachedOther, parseOther, ledOther⟩,
        holds⟩

/-- How an entity comes to its parent. The entity is composed of the parent; it says the parent's
name, or that it inherits, and then the parent is an entity with a table. -/
def InheritsFrom (registry : Registry) (name parent : String) : Prop :=
  ∃ schema flat target, registry.get? name = some schema ∧
    registry.flatten name schema = .ok flat ∧ registry.LeadsTo schema parent target ∧
    (flat.keywords.inherits? = .ok (some (.parent parent)) ∨
      flat.keywords.inherits? = .ok (some (.enabled true)) ∧
        ∃ tablename, (registry.keywords target).tablename? = .ok (some tablename))

/-- A schema is composed of the parent that is found for it. -/
theorem leadsTo_of_parent? (found : registry.parent? name schema = .ok (some parent)) :
    ∃ flat target, registry.flatten name schema = .ok flat ∧
      registry.LeadsTo schema parent target ∧
      (flat.keywords.inherits? = .ok (some (.parent parent)) ∨
        flat.keywords.inherits? = .ok (some (.enabled true)) ∧
          ∃ tablename, (registry.keywords target).tablename? = .ok (some tablename)) := by
  obtain ⟨flat, flattened, found⟩ := bind_eq_ok.mp found
  dsimp only at found
  obtain ⟨inherits, stated, found⟩ := bind_eq_ok.mp found
  cases inherits with
  | none => cases found
  | some inherits =>
    cases inherits with
    | enabled value =>
      cases value with
      | false => cases found
      | true =>
        obtain ⟨last, search, found⟩ := bind_eq_ok.mp found
        cases last with
        | none => cases found
        | some last =>
          obtain rfl := Option.some.inj (Except.ok.inj found)
          obtain ⟨target, led, isWanted | ⟨-, hasTable⟩⟩ := searchParent_eq_some search
          · cases isWanted
          · exact ⟨flat, target, flattened, led, .inr ⟨stated, hasTable⟩⟩
    | parent wanted =>
      obtain ⟨last, search, found⟩ := bind_eq_ok.mp found
      cases last with
      | none => cases found
      | some last =>
        obtain rfl := Option.some.inj (Except.ok.inj found)
        obtain ⟨target, led, isWanted | ⟨isNone, -⟩⟩ := searchParent_eq_some search
        · obtain rfl := Option.some.inj isWanted
          exact ⟨flat, target, flattened, led, .inl stated⟩
        · cases isNone

theorem inheritsFrom_of_parent? (registered : registry.get? name = some schema)
    (found : registry.parent? name schema = .ok (some parent)) :
    registry.InheritsFrom name parent := by
  obtain ⟨flat, target, flattened, led, stated⟩ := leadsTo_of_parent? found
  exact ⟨schema, flat, target, registered, flattened, led, stated⟩

theorem mem_names_iff : name ∈ registry.names ↔ ∃ schema, registry.get? name = some schema := by
  rw [names, ← Keyed.contains_iff, Keyed.contains, Option.isSome_iff_exists]
  rfl

theorem HasTable.mem_names {tablename : String} (named : registry.HasTable name tablename) :
    name ∈ registry.names := by
  obtain ⟨schema, flat, registered, -⟩ := named
  exact mem_names_iff.mpr ⟨schema, registered⟩

/-- An entity that inherits nothing has a table of its own if it has one at all. -/
theorem HasTable.ownsTable {tablename : String} (named : registry.HasTable name tablename)
    (alone : (registry.registered name >>= registry.parent? name) = .ok none) :
    registry.OwnsTable name := by
  obtain ⟨schema, flat, registered, flattened, isNamed⟩ := named
  rw [registered_eq_ok.mpr registered, ok_bind] at alone
  have own : registry.ownSchema name schema = .ok ⟨none, flat.fields⟩ :=
    ownSchema_eq_ok.mpr ⟨alone, flat, flattened, rfl⟩
  exact ⟨schema, _, tablename, registered, own, isNamed⟩

end Registry

namespace Compilation

variable {config : Config} {registry : Registry} {name : String} {before after : Compilation}

/-- A relationship can be linked if its entity is registered; it must have a table, unless the entity
holds the key of a list. -/
theorem link_modelName {relationship : Relationship}
    (linked : (link name relationship).runOn before = (.ok (), after)) :
    relationship.modelName ∈ before.registry.names ∧ (relationship.cardinality ≠ .oneToMany →
      ∃ tablename, before.registry.HasTable relationship.modelName tablename) := by
  have owned : ∀ {target column nullable}, (addForeignKey target relationship.modelName column
      nullable).runOn before = (.ok (), after) →
      ∃ tablename, before.registry.HasTable relationship.modelName tablename := by
    intro target column nullable added
    obtain ⟨_, _, source, -, -, found, -⟩ :=
      Registry.ensuresKey_of_ensureForeignKey (addForeignKey_eq_ok.mp added).1
    obtain ⟨schema, owner, registered, flattened, named, -⟩ := Registry.keySource_eq_ok.mp found
    exact ⟨_, schema, owner, registered, flattened, named⟩
  have both : (∃ tablename, before.registry.HasTable relationship.modelName tablename) →
      relationship.modelName ∈ before.registry.names ∧ (relationship.cardinality ≠ .oneToMany →
        ∃ tablename, before.registry.HasTable relationship.modelName tablename) :=
    fun ⟨tablename, named⟩ => ⟨named.mem_names, fun _ => ⟨tablename, named⟩⟩
  unfold link at linked
  split at linked
  · obtain ⟨table, middle, asked, -⟩ := CompileM.runOn_bind_eq_ok.mp linked
    obtain ⟨joined, -⟩ := Prod.mk.inj asked
    obtain ⟨first, second, -, found, -⟩ := Registry.association_eq_ok.mp joined
    obtain ⟨schema, flat, tablename, _, _, registered, flattened, named, -⟩ :=
      Registry.associationSide_eq_ok.mp found
    exact both ⟨tablename, schema, flat, registered, flattened, named⟩
  · rename_i isList
    obtain ⟨schema, _, _, registered, -⟩ :=
      Registry.ensuresKey_of_ensureForeignKey (addForeignKey_eq_ok.mp linked).1
    exact ⟨Registry.mem_names_iff.mpr ⟨schema, registered⟩, fun notList => absurd isList notList⟩
  · exact both (owned linked)
  · exact both (owned linked)

section Runs

variable (keyed : registry.WellKeyed)
  (succeeded : (compileEntities config (prepared config registry).2.registry.names).runOn
    (prepared config registry).2 = (.ok (), after))

include keyed

theorem nodup_names : (prepared config registry).2.registry.names.Nodup :=
  (keyed.prepared config).entries

/-- When the run comes to an entity, every entity has the parent and the tables that it was given. -/
theorem Visit.keepsTables (visit : Visit config registry name after) :
    (placed config registry).KeepsTables (reaching config registry name).registry :=
  (keepsTables_prepared keyed config).trans
    (visit.earlierSteps.keepsTables (keyed.prepared config))

include succeeded

/-- Every entity is visited, if it is registered. -/
theorem exists_visit_of_owned (owned : (placed config registry).OwnsTable name) :
    Nonempty (Visit config registry name after) := by
  refine visit_of_mem succeeded (nodup_names keyed) ?_
  obtain ⟨schema, _, _, registered, -⟩ := owned
  rw [(keepsTables_prepared keyed config).names]
  exact Registry.mem_names_iff.mpr ⟨schema, registered⟩

theorem exists_visit_of_built {model : Model}
    (built : ModelStore.get? after.store name = some model) :
    Nonempty (Visit config registry name after) := by
  refine visit_of_mem succeeded (nodup_names keyed) ?_
  by_contra notMember
  have steps := (compileEntities_moves config _ (List.Subset.refl _)).steps succeeded
  have absent : ModelStore.get? after.store name = none := by
    refine steps.not_built notMember ?_
    rw [prepared_store]
    rfl
  cases absent.symm.trans built

/-- The entities that have models are those with a table of their own. -/
theorem isBuilt_iff_ownsTable : (ModelStore.get? after.store name).isSome = true ↔
    (placed config registry).OwnsTable name := by
  constructor
  · intro built
    obtain ⟨model, built⟩ := Option.isSome_iff_exists.mp built
    obtain ⟨visit⟩ := exists_visit_of_built keyed succeeded built
    obtain ⟨_, -, ⟨run⟩, -⟩ := visit.run_of_get? built
    refine ((visit.keepsTables keyed).owns name).mp ?_
    exact ⟨run.schema, run.own, run.tablename, run.registered, run.ownFound, run.hasTable⟩
  · intro owned
    obtain ⟨visit⟩ := exists_visit_of_owned keyed succeeded owned
    obtain ⟨schema, own, tablename, registered, ownFound, named⟩ :=
      ((visit.keepsTables keyed).owns name).mpr owned
    obtain ⟨model, isMade⟩ : ∃ model, visit.made = some model := by
      rcases compileEntity_eq_ok.mp visit.compiled with ⟨absent, -⟩ |
        ⟨_, _, found, registeredToo, ownFoundToo, foundTable, compiled⟩
      · cases absent.symm.trans registered
      obtain rfl := Option.some.inj (registered.symm.trans registeredToo)
      obtain rfl := Except.ok.inj (ownFound.symm.trans ownFoundToo)
      obtain rfl := Except.ok.inj (named.symm.trans foundTable)
      obtain ⟨_, _, _, model, -, -, -, -, isMade⟩ := linkedModel_eq_ok.mp compiled.2
      exact ⟨model, isMade⟩
    have compiled := visit.compiled
    rw [isMade] at compiled
    obtain ⟨run⟩ := entityRun_of_compileEntity compiled
    have recorded : ModelStore.get? (visit.done.record visit.made).store name = some model := by
      rw [isMade, record, ModelStore.get?_add, if_pos (model_eq_ok run.built).1.symm]
    obtain ⟨later, found, -⟩ := visit.laterSteps.built visit.notLater recorded
    exact Option.isSome_iff_exists.mpr ⟨later, found⟩

/-- The entities that a model refers to. -/
theorem refers_of_built {model : Model} (built : ModelStore.get? after.store name = some model) :
    (∀ property relationship, (property, relationship) ∈ model.relationships →
      relationship.modelName ∈ (placed config registry).names ∧
        (relationship.cardinality ≠ .oneToMany →
          ∃ tablename, (placed config registry).HasTable relationship.modelName tablename)) ∧
    ∀ parent, model.parent = some parent → (placed config registry).InheritsFrom name parent := by
  obtain ⟨visit⟩ := exists_visit_of_built keyed succeeded built
  obtain ⟨first, -, ⟨run⟩, recorded⟩ := visit.run_of_get? built
  obtain ⟨later, found, added⟩ := visit.laterSteps.built visit.notLater recorded
  obtain rfl := Option.some.inj (built.symm.trans found)
  have kept := visit.keepsTables keyed
  have keyedThen := visit.earlierSteps.keyed (keyed.prepared config)
  constructor
  · intro property relationship related
    rw [added.relationships] at related
    obtain ⟨state, next, -, toState, linked, -⟩ := run.linked_at keyedThen related
    have keptThen := kept.trans (toState.keepsTables keyedThen)
    obtain ⟨registered, hasTable⟩ := link_modelName linked
    refine ⟨keptThen.names ▸ registered, fun notList => ?_⟩
    obtain ⟨tablename, named⟩ := hasTable notList
    exact ⟨tablename, (keptThen.table _ _).mp named⟩
  · intro parent isParent
    have same : model.parent = run.own.parent := by
      obtain ⟨columns, -, rfl⟩ := added
      exact (modelOf_of_model run.built).parent
    have parentThen : (reaching config registry name).registry.registered name >>=
        (reaching config registry name).registry.parent? name = .ok (some parent) := by
      rw [Registry.registered_eq_ok.mpr run.registered, ok_bind,
        (Registry.ownSchema_eq_ok.mp run.ownFound).1, ← same, isParent]
    rw [kept.parent] at parentThen
    obtain ⟨schema, registered, found⟩ := bind_eq_ok.mp parentThen
    exact Registry.inheritsFrom_of_parent? (Registry.registered_eq_ok.mp registered) found

end Runs

end Compilation

open Compilation in
/-- The models that a registry compiles to are those of the entities that have a table in their own
schema. So the entity of a relationship and the parent of a model have models exactly if they do.
The entity of a relationship is registered, and has a table unless it holds the key of a list; so it
has a model if it inherits nothing. A parent may be any entity that is named, or else has a table. -/
theorem Registry.compile_modelNames {registry : Registry} {config : Config}
    {compiled : CompiledSchema} (keyed : registry.WellKeyed)
    (succeeded : (registry.compile config).1 = .ok compiled) :
    (∀ name, (compiled.model? name).isSome = true ↔ (placed config registry).OwnsTable name) ∧
    ∀ model ∈ compiled.models,
      (∀ property relationship, (property, relationship) ∈ model.relationships →
        relationship.modelName ∈ (placed config registry).names ∧
        (relationship.cardinality ≠ .oneToMany →
          (∃ tablename, (placed config registry).HasTable relationship.modelName tablename) ∧
          ((placed config registry).registered relationship.modelName >>=
              (placed config registry).parent? relationship.modelName = .ok none →
            (compiled.model? relationship.modelName).isSome = true))) ∧
      ∀ parent, model.parent = some parent →
        (placed config registry).InheritsFrom model.name parent := by
  have run : registry.compile config = (.ok compiled, (registry.compile config).2) :=
    Prod.ext succeeded rfl
  obtain ⟨-, after, entities, rfl, -⟩ := compile_eq_ok_iff.mp run
  have contained : ∀ name, (CompiledSchema.model? ⟨after.store, after.tables⟩ name).isSome = true ↔
      (placed config registry).OwnsTable name := fun name => isBuilt_iff_ownsTable keyed entities
  refine ⟨contained, fun model member => ?_⟩
  have nodup : (after.store.map Model.name).Nodup := by
    refine ((compileEntities_moves config _ (List.Subset.refl _)).steps entities).nodup_store ?_
    rw [prepared_store]
    exact List.nodup_nil
  obtain ⟨related, inherits⟩ :=
    refers_of_built keyed entities (ModelStore.get?_of_mem nodup member)
  refine ⟨fun property relationship isRelated => ?_, inherits⟩
  obtain ⟨registered, hasTable⟩ := related property relationship isRelated
  refine ⟨registered, fun notList => ⟨hasTable notList, fun alone => ?_⟩⟩
  obtain ⟨tablename, named⟩ := hasTable notList
  exact (contained _).mpr (named.ownsTable alone)

namespace Registry

/-- Cars are assets, which have no table, and drivers have cars. -/
def garage : Registry where
  entries := [
    ("Asset", .obj [("type", .str "object"), ("properties", .obj [
      ("price", .obj [("type", .str "integer")])])]),
    ("Car", .obj [("allOf", .arr [.obj [("$ref", .str "#/Asset")],
      .obj [("type", .str "object"), ("x-tablename", .str "car"), ("x-inherits", .str "Asset"),
        ("properties", .obj [("id", .obj [("type", .str "integer"),
          ("x-primary-key", .bool true)])])]])]),
    ("Driver", .obj [("type", .str "object"), ("x-tablename", .str "driver"), ("properties", .obj [
      ("name", .obj [("type", .str "string")]), ("car", .obj [("$ref", .str "#/Car")])])])]
  place := none
  documents := Documents.empty

/-- What a compilation says about the parent of cars, and whether there are models of the entities. -/
def garageFacts (compiled : CompiledSchema) : Option String × Bool × Bool × Bool :=
  ((compiled.model? "Car").bind Model.parent, (compiled.model? "Asset").isSome,
    (compiled.model? "Car").isSome, (compiled.model? "Driver").isSome)

theorem exists_garageFacts : ∃ compiled, (garage.compile Config.usual).1 = .ok compiled ∧
    garageFacts compiled = (some "Asset", false, true, true) := by
  have facts : (garage.compile Config.usual).1.map garageFacts =
      .ok (some "Asset", false, true, true) := by cbv
  cases succeeded : (garage.compile Config.usual).1 with
  | error e =>
    rw [succeeded] at facts
    cases facts
  | ok compiled =>
    rw [succeeded] at facts
    exact ⟨compiled, rfl, Except.ok.inj facts⟩

/-- Cars and drivers have models, and cars have assets as their parent, which they name. -/
theorem compile_modelNames_garage : garage.WellKeyed ∧
    ∃ compiled, (garage.compile Config.usual).1 = .ok compiled ∧
      garage.OwnsTable "Car" ∧ garage.OwnsTable "Driver" ∧ ¬ garage.OwnsTable "Asset" ∧
      garage.InheritsFrom "Car" "Asset" := by
  have keyed : garage.WellKeyed := wellKeyed_of_entries (by decide) (by decide +kernel)
  obtain ⟨compiled, succeeded, facts⟩ := exists_garageFacts
  obtain ⟨parent, asset, car, driver⟩ : (compiled.model? "Car").bind Model.parent = some "Asset" ∧
      (compiled.model? "Asset").isSome = false ∧ (compiled.model? "Car").isSome = true ∧
      (compiled.model? "Driver").isSome = true := by
    simpa [garageFacts] using facts
  obtain ⟨contained, refers⟩ := compile_modelNames keyed succeeded
  refine ⟨keyed, compiled, succeeded, (contained _).mp car, (contained _).mp driver, ?_, ?_⟩
  · intro owned
    have isThere := (contained _).mpr owned
    rw [asset] at isThere
    cases isThere
  · obtain ⟨model, found, isParent⟩ := Option.bind_eq_some_iff.mp parent
    have named : model.name = "Car" := by simpa using List.find?_some found
    exact named ▸ (refers model (List.mem_of_find?_eq_some found)).2 "Asset" isParent

/-- A model may have a parent that has no model: an entity without a table can be named. -/
theorem not_compile_parent : ¬ ∀ (registry : Registry) (config : Config)
    (compiled : CompiledSchema), registry.WellKeyed →
    (registry.compile config).1 = .ok compiled → ∀ model ∈ compiled.models,
      (∀ property relationship, (property, relationship) ∈ model.relationships →
        (compiled.model? relationship.modelName).isSome = true) ∧
      ∀ parent, model.parent = some parent → (compiled.model? parent).isSome = true := by
  intro always
  obtain ⟨compiled, succeeded, facts⟩ := exists_garageFacts
  obtain ⟨parent, asset, -⟩ : (compiled.model? "Car").bind Model.parent = some "Asset" ∧
      (compiled.model? "Asset").isSome = false ∧ (compiled.model? "Car").isSome = true ∧
      (compiled.model? "Driver").isSome = true := by
    simpa [garageFacts] using facts
  obtain ⟨model, found, isParent⟩ := Option.bind_eq_some_iff.mp parent
  have keyed : garage.WellKeyed := wellKeyed_of_entries (by decide) (by decide +kernel)
  have isThere := (always garage Config.usual compiled keyed succeeded model
    (List.mem_of_find?_eq_some found)).2 "Asset" isParent
  rw [asset] at isThere
  cases isThere

end Registry

end EntityMapping
