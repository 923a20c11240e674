import EntityMapping.Proofs.Chains
import EntityMapping.Proofs.CompiledProperties
import EntityMapping.Proofs.ModelNames

/-!
Which models a registry compiles to. Back references and keys are added to entities while others are
compiled, but no entity loses its table or gets one: the models are those of the entities that have
a table of their own in the registry as it is given, in its order. No model has two properties of a
name, whatever is attached to it later.
-/

set_option autoImplicit false
set_option relaxedAutoImplicit false

namespace EntityMapping

open Keyed (Distinct)

/-- The name of a model, with that of its table. -/
def Model.tableEntry (model : Model) : String × String := (model.name, model.tablename)

namespace Registry

variable {registry other : Registry} {name : String}

/-- The entities among some that have a table of their own, each with the name of the table. -/
def ownTablesAmong (registry : Registry) (names : List String) : Keyed String :=
  names.filterMap fun name =>
    match registry.ownTablename name with
    | .ok (some tablename) => some (name, tablename)
    | _ => none

/-- The entities that have a table of their own, in order. -/
def ownTables (registry : Registry) : Keyed String := registry.ownTablesAmong registry.names

/-- Where every reference stays within the registry, the place of the registry does not count. -/
theorem RefersLocally.ownTablename (references : registry.RefersLocally)
    (sameEntries : other.entries = registry.entries) :
    other.ownTablename name = registry.ownTablename name := by
  have sameEntry : other.registered name = registry.registered name := by
    rw [registered, registered, get?, get?, sameEntries]
  unfold Registry.ownTablename
  rw [sameEntry]
  refine bind_congr_of_eq fun schema entry => ?_
  have inSchema := references _ (Keyed.mem_of_get? (registered_eq_ok.mp entry))
  have reaches := (references.composedLocally inSchema).reachesAlike sameEntries
  have enough : registry.names.length ≤ other.chainLimit := by
    simpa [names, Keyed.keys, sameEntries] using other.chainLimit_ge
  rw [(reaches.ownSchema registry.length_names_le enough).same]

end Registry

/-- A column under a name that a model does not have leaves the names of its properties distinct. -/
theorem Model.nodup_addColumn {model : Model} {property : String} {schema : Json} {column : Column}
    (distinct : (model.properties.map ModelProperty.name).Nodup)
    (lacks : model.hasProperty property = false) :
    ((model.addColumn property schema column).properties.map ModelProperty.name).Nodup := by
  have absent : property ∉ model.properties.map ModelProperty.name := by
    simpa [hasProperty, property?, Option.isSome_eq_false_iff, List.find?_eq_none] using lacks
  rw [addColumn, List.map_append]
  exact distinct.append (List.nodup_singleton _) (by simpa using absent)

namespace Compilation

variable {config : Config} {registry base : Registry} {name : String} {list : List String}
  {before after : Compilation} {made : Option Model}

/-- An entity becomes a model exactly if it has a table of its own. -/
theorem made_of_compileEntity
    (compiled : (compileEntity config name).runOn before = (.ok made, after)) :
    made.map Model.tableEntry =
      match before.registry.ownTablename name with
      | .ok (some tablename) => some (name, tablename)
      | _ => none := by
  rcases compileEntity_eq_ok.mp compiled with ⟨absent, rfl, -⟩ |
    ⟨schema, own, tablename, registered, ownFound, named, compiled⟩
  · have unregistered : before.registry.ownTablename name =
        .error (.malformedRelationship (.unregistered name)) := by
      simp [Registry.ownTablename, Registry.registered, absent]
    rw [unregistered, Option.map_none]
  · rw [Registry.ownTablename_eq_ok.mpr ⟨schema, own, registered, ownFound, named⟩]
    cases tablename with
    | none => rw [compiled.1, Option.map_none]
    | some tablename =>
      obtain ⟨_, _, _, model, -, -, -, built, rfl⟩ := linkedModel_eq_ok.mp compiled.2
      obtain ⟨sameName, sameTable, -⟩ := modelOf_of_model built
      rw [Option.map_some, Model.tableEntry, sameName, sameTable]

/-- Linking attaches columns to models; it neither adds a model nor changes its table. -/
theorem Steps.tableEntries (steps : Steps [] before after) :
    after.store.map Model.tableEntry = before.store.map Model.tableEntry := by
  induction steps with
  | refl => rfl
  | tail _ step ih =>
    refine Eq.trans ?_ ih
    cases step with
    | table => rfl
    | model member => cases member
    | key ensured =>
      obtain ⟨_, _, _, -, -, -, change⟩ := Registry.ensuresKey_of_ensureForeignKey ensured
      cases change with
      | satisfied => rfl
      | taken => rfl
      | written => rfl
      | attached =>
        dsimp only
        rw [ModelStore.map_update]
        exact fun _ _ => rfl

/-- The models of some entities that are compiled one after the other are those of the entities
with a table of their own; which ones these are has not changed since the registry was `base`. -/
theorem tableEntries_of_compileEntities (keyed : before.registry.WellKeyed)
    (kept : base.KeepsTables before.registry) (distinct : list.Nodup)
    (fresh : ∀ name ∈ list, name ∉ before.store.map Model.name)
    (ran : (compileEntities config list).runOn before = (.ok (), after)) :
    after.store.map Model.tableEntry =
      before.store.map Model.tableEntry ++ base.ownTablesAmong list := by
  induction list generalizing before with
  | nil =>
    obtain ⟨-, rfl⟩ := Prod.mk.inj ran
    simp [Registry.ownTablesAmong]
  | cons name rest ih =>
    obtain ⟨made, middle, compiled, ran⟩ := compileEntities_cons_eq_ok.mp ran
    have steps : Steps [] before middle := (compileEntity_moves config name).steps compiled
    have entries := steps.tableEntries
    have names : middle.store.map Model.name = before.store.map Model.name := by
      simpa [Function.comp_def, Model.tableEntry] using congrArg (List.map Prod.fst) entries
    have isMade := made_of_compileEntity compiled
    rw [kept.ownTablename] at isMade
    have keyedThen := steps.keyed keyed
    have keptThen := kept.trans (steps.keepsTables keyed)
    obtain ⟨notLater, distinct⟩ := List.nodup_cons.mp distinct
    have freshLater : ∀ other ∈ rest, other ∉ middle.store.map Model.name := fun other member =>
      names ▸ fresh other (List.mem_cons_of_mem _ member)
    cases made with
    | none =>
      rw [show after.store.map Model.tableEntry =
          middle.store.map Model.tableEntry ++ base.ownTablesAmong rest from
          ih keyedThen keptThen distinct freshLater ran, entries, Registry.ownTablesAmong,
        Registry.ownTablesAmong, List.filterMap_cons, ← isMade]
      rfl
    | some model =>
      obtain ⟨run⟩ := entityRun_of_compileEntity compiled
      have sameName : model.name = name := (modelOf_of_model run.built).name
      have added : (middle.record (some model)).store = middle.store ++ [model] := by
        refine ModelStore.add_of_not_mem ?_
        rw [sameName, names]
        exact fresh name List.mem_cons_self
      have freshThen : ∀ other ∈ rest,
          other ∉ (middle.record (some model)).store.map Model.name := by
        intro other member
        have different : other ≠ name := fun same => notLater (same ▸ member)
        simpa [added, sameName, different] using freshLater other member
      rw [show after.store.map Model.tableEntry =
          (middle.record (some model)).store.map Model.tableEntry ++ base.ownTablesAmong rest from
          ih keyedThen keptThen distinct freshThen ran, added, List.map_append, entries,
        Registry.ownTablesAmong, Registry.ownTablesAmong, List.filterMap_cons, ← isMade]
      simp

/-- What a run has made so far has no model with two properties of a name. -/
structure PropertiesDistinct (state : Compilation) : Prop where
  keyed : state.registry.WellKeyed
  distinct : ∀ model ∈ state.store, (model.properties.map ModelProperty.name).Nodup

/-- A key is attached to a model under a name only that the model does not have. -/
theorem propertiesDistinct_invariant : Invariant PropertiesDistinct where
  table held _ _ := ⟨held.keyed, held.distinct⟩
  key held ensured := by
    have step : Steps [] _ _ := .single (.key ensured)
    refine ⟨step.keyed held.keyed, ?_⟩
    obtain ⟨_, _, _, -, -, -, change⟩ := Registry.ensuresKey_of_ensureForeignKey ensured
    cases change with
    | satisfied => exact held.distinct
    | taken => exact held.distinct
    | written => exact held.distinct
    | attached _ _ _ _ lacks =>
      refine ModelStore.forall_mem_update_of_get? held.distinct fun model found => ?_
      rw [ModelStore.hasProperty, found, Option.any_some] at lacks
      exact Model.nodup_addColumn (held.distinct model (List.mem_of_find?_eq_some found)) lacks

theorem EntityRun.distinct {built : Model} (run : EntityRun name before after built)
    (keyed : before.registry.WellKeyed) (keyedThen : after.registry.WellKeyed) :
    (built.properties.map ModelProperty.name).Nodup := by
  obtain ⟨declared, found, properties⟩ := (modelOf_of_model run.built).properties
  have whole : ((after.registry.get? name).getD run.schema).isWellKeyed = true := by
    cases now : after.registry.get? name with
    | none => exact keyed.of_get? run.registered
    | some schema => exact keyedThen.of_get? now
  have flat := keyedThen.of_derives (Registry.derives_of_flattenFrom run.flattened) whole
  have isDeclared := propertiesOf_eq_ok found
  exact (isDeclared ▸ sublist_of_modelProperties properties).nodup
    (Registry.distinct_propertiesIn flat)

theorem propertiesDistinct_compileEntities (config : Config) (list : List String) :
    Preserves PropertiesDistinct (compileEntities config list) := by
  refine propertiesDistinct_invariant.compileEntities config ?_
  intro name _ before after built heldBefore held run
  exact ⟨held.keyed,
    ModelStore.forall_mem_add held.distinct (run.distinct heldBefore.keyed held.keyed)⟩

end Compilation

namespace Registry

open Compilation

variable {registry final : Registry} {config : Config} {compiled : CompiledSchema}

/-- The models of a registry whose references stay within it are those of the entities that have a
table of their own as the registry is given, in its order, each with this table; and no model has
two properties of a name. -/
theorem compile_ownTables (keyed : registry.WellKeyed) (references : registry.RefersLocally)
    (succeeded : registry.compile config = (.ok compiled, final)) :
    (∀ name ∈ registry.names, ∃ tablename, registry.ownTablename name = .ok tablename) ∧
    compiled.models.map (fun model => (model.name, model.tablename)) = registry.ownTables ∧
    (compiled.models.map Model.name).Nodup ∧
    ∀ model ∈ compiled.models, (model.properties.map ModelProperty.name).Nodup := by
  obtain ⟨-, after, ran, rfl, -⟩ := compile_eq_ok_iff.mp succeeded
  have keyedPrepared := keyed.prepared config
  have kept := keepsTables_prepared keyed config
  have names : (prepared config registry).2.registry.names = registry.names := by
    rw [kept.names, Registry.names, Registry.names, placed_entries]
  have asGiven : ∀ name, (placed config registry).ownTablename name =
      registry.ownTablename name := fun name =>
    references.ownTablename (placed_entries config registry)
  have empty := prepared_store config registry
  refine ⟨fun name member => ?_, ?_, ?_, ?_⟩
  · obtain ⟨visit⟩ := visit_of_mem ran keyedPrepared.entries (names ▸ member)
    rw [← asGiven name, ← (visit.keepsTables keyed).ownTablename name]
    obtain ⟨schema, registered⟩ : ∃ schema,
        (reaching config registry name).registry.get? name = some schema := by
      rw [← mem_names_iff, (visit.keepsTables keyed).names, Registry.names, placed_entries]
      exact member
    rcases compileEntity_eq_ok.mp visit.compiled with ⟨absent, -, -⟩ |
      ⟨schema, own, tablename, isRegistered, ownFound, named, -⟩
    · cases absent.symm.trans registered
    · exact ⟨tablename, ownTablename_eq_ok.mpr ⟨schema, own, isRegistered, ownFound, named⟩⟩
  · have entries := tableEntries_of_compileEntities keyedPrepared kept (nodup_names keyed)
      (fun name _ => by simp [empty]) ran
    rw [empty, names] at entries
    simp only [ownTablesAmong, asGiven] at entries
    exact entries
  · have steps := (compileEntities_moves config _ (List.Subset.refl _)).steps ran
    exact steps.nodup_store (by simp [empty])
  · have begins : PropertiesDistinct (prepared config registry).2 :=
      ⟨keyedPrepared, by simp [empty]⟩
    have ends := propertiesDistinct_compileEntities config
      (prepared config registry).2.registry.names _ begins
    rw [ran] at ends
    exact ends.distinct

/-- Divisions have employees, who come first; nothing is said about tables of offices. -/
def staffing : Registry where
  entries := [
    ("Employee", .obj [("type", .str "object"), ("x-tablename", .str "employee"),
      ("properties", .obj [
        ("id", .obj [("type", .str "integer"), ("x-primary-key", .bool true)])])]),
    ("Office", .obj [("type", .str "object"), ("properties", .obj [
      ("city", .obj [("type", .str "string")])])]),
    ("Division", .obj [("type", .str "object"), ("x-tablename", .str "division"),
      ("properties", .obj [
        ("id", .obj [("type", .str "integer"), ("x-primary-key", .bool true)]),
        ("employees", .obj [("type", .str "array"),
          ("items", .obj [("$ref", .str "#/Employee")])])])])]
  place := none
  documents := Documents.empty

/-- The models and their tables, and the names of their properties. -/
def modelFacts (compiled : CompiledSchema) : Keyed String × List (List String) :=
  (compiled.models.map fun model => (model.name, model.tablename),
    compiled.models.map fun model => model.properties.map ModelProperty.name)

/-- The key of employees is attached to their model when divisions are compiled, and stands beside
what they had. -/
theorem compile_ownTables_staffing : staffing.WellKeyed ∧ staffing.RefersLocally ∧
    ∃ compiled final,
      staffing.compile (Config.usual.withSpecPath "spec.json") = (.ok compiled, final) ∧
      modelFacts compiled = ([("Employee", "employee"), ("Division", "division")],
        [["id", "division_id"], ["id", "employees"]]) ∧
      staffing.ownTables = [("Employee", "employee"), ("Division", "division")] := by
  have keyed : staffing.WellKeyed := wellKeyed_of_entries (by decide) (by decide +kernel)
  have references : staffing.RefersLocally := by decide +kernel
  have facts : (staffing.compile (Config.usual.withSpecPath "spec.json")).1.map modelFacts = .ok
      ([("Employee", "employee"), ("Division", "division")],
        [["id", "division_id"], ["id", "employees"]]) := by cbv
  obtain ⟨compiled, succeeded, same⟩ := map_eq_ok.mp facts
  obtain ⟨-, models, -⟩ := compile_ownTables keyed references (Prod.ext succeeded rfl)
  exact ⟨keyed, references, compiled, _, Prod.ext succeeded rfl, same,
    models.symm.trans (congrArg Prod.fst same)⟩

end Registry

end EntityMapping
