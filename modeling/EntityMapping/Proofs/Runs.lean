import EntityMapping.Compilation.Run
import EntityMapping.Proofs.Outcome
import Mathlib.Logic.Relation

/-!
Runs of a compilation, step by step. A run changes what it has made so far in three ways only: it
collects a table, it ensures a foreign key column, or it adds a model of an entity that it was asked
to compile. This holds of runs that fail as well, up to where they fail.
-/

set_option autoImplicit false
set_option relaxedAutoImplicit false

namespace EntityMapping

variable {α β : Type}

namespace CompileM

/-- The outcome of a computation, and what it leaves behind. -/
def runOn (action : CompileM α) (before : Compilation) : Except SchemaError α × Compilation :=
  action.run.run before

@[simp] theorem runOn_pure (value : α) (before : Compilation) :
    runOn (pure value) before = (.ok value, before) := rfl

@[simp] theorem runOn_throw (e : SchemaError) (before : Compilation) :
    runOn (throw e : CompileM α) before = (.error e, before) := rfl

@[simp] theorem runOn_get (before : Compilation) :
    runOn (get : CompileM Compilation) before = (.ok before, before) := rfl

@[simp] theorem runOn_set (next before : Compilation) :
    runOn (set next : CompileM PUnit) before = (.ok ⟨⟩, next) := rfl

theorem runOn_bind (action : CompileM α) (next : α → CompileM β) (before : Compilation) :
    runOn (action >>= next) before =
      match runOn action before with
      | (.ok value, after) => runOn (next value) after
      | (.error e, after) => (.error e, after) := by
  show (ExceptT.run (action >>= next)).run before = _
  rw [ExceptT.run_bind, StateT.run_bind]
  unfold runOn
  generalize action.run.run before = left
  obtain ⟨result, after⟩ := left
  cases result <;> rfl

@[simp] theorem runOn_ask (query : Registry → Except SchemaError α) (before : Compilation) :
    runOn (Compilation.ask query) before = (query before.registry, before) := rfl

@[simp] theorem runOn_within (context : String) (action : CompileM α) (before : Compilation) :
    runOn (Compilation.within context action) before =
      (inContext context (runOn action before).1, (runOn action before).2) := rfl

/-- How a computation of two parts succeeds. -/
theorem runOn_bind_eq_ok {action : CompileM α} {next : α → CompileM β} {before after : Compilation}
    {value : β} : runOn (action >>= next) before = (.ok value, after) ↔
      ∃ first middle, runOn action before = (.ok first, middle) ∧
        runOn (next first) middle = (.ok value, after) := by
  rw [runOn_bind]
  generalize runOn action before = left
  obtain ⟨result, middle⟩ := left
  cases result with
  | error e => simp
  | ok first => simp

end CompileM

namespace Compilation

/-- One change to what a run has made so far. -/
inductive Step (names : List String) : Compilation → Compilation → Prop
  | table {before : Compilation} {table : AssociationTable} :
      table.name ∉ before.tables.map AssociationTable.name →
      Step names before { before with tables := before.tables ++ [table] }
  | key {before : Compilation} {target owning column : String} {nullable : Option Bool}
      {registry : Registry} {store : ModelStore} :
      before.registry.ensureForeignKey before.store target owning column nullable =
        .ok (registry, store) →
      Step names before { before with registry := registry, store := store }
  | model (before : Compilation) {model : Model} : model.name ∈ names →
      Step names before { before with store := ModelStore.add before.store model }

/-- Any number of changes; models are those of some names. -/
abbrev Steps (names : List String) : Compilation → Compilation → Prop :=
  Relation.ReflTransGen (Step names)

variable {names more : List String}

theorem Step.mono {before after : Compilation} (subset : names ⊆ more)
    (step : Step names before after) : Step more before after := by
  cases step with
  | table fresh => exact .table fresh
  | key ensured => exact .key ensured
  | model member => exact .model _ (subset member)

theorem Steps.mono {before after : Compilation} (subset : names ⊆ more)
    (steps : Steps names before after) : Steps more before after :=
  Relation.ReflTransGen.mono (fun _ _ step => step.mono subset) _ _ steps

/-- A computation that keeps what holds of a run so far, whether it succeeds or fails. -/
def Preserves (holds : Compilation → Prop) (action : CompileM α) : Prop :=
  ∀ before, holds before → holds (action.runOn before).2

variable {holds : Compilation → Prop}

namespace Preserves

theorem pure (value : α) : Preserves holds (Pure.pure value : CompileM α) := fun _ before => before

theorem ask (query : Registry → Except SchemaError α) : Preserves holds (ask query) :=
  fun _ before => before

theorem get : Preserves holds (MonadState.get : CompileM Compilation) := fun _ before => before

theorem within {action : CompileM α} (context : String) (preserves : Preserves holds action) :
    Preserves holds (within context action) := fun before => by
  rw [CompileM.runOn_within]
  exact preserves before

theorem bind {action : CompileM α} {next : α → CompileM β} (first : Preserves holds action)
    (continued : ∀ value, Preserves holds (next value)) : Preserves holds (action >>= next) := by
  intro before held
  have heldThen := first before held
  rw [CompileM.runOn_bind]
  generalize action.runOn before = left at heldThen
  obtain ⟨result, middle⟩ := left
  cases result with
  | error e => exact heldThen
  | ok value => exact continued value middle heldThen

/-- What is asked of the registry may be used in what comes next. -/
theorem ask_bind {query : Registry → Except SchemaError α} {next : α → CompileM β}
    (continued : ∀ before value, holds before → query before.registry = .ok value →
      holds ((next value).runOn before).2) :
    Preserves holds (Compilation.ask query >>= next) := by
  intro before held
  rw [CompileM.runOn_bind, CompileM.runOn_ask]
  cases asked : query before.registry with
  | error e => exact held
  | ok value => exact continued before value held asked

end Preserves

/-- What linking relationships keeps: collecting a table of a new name and ensuring a key do not end
it. -/
structure Invariant (holds : Compilation → Prop) : Prop where
  table : ∀ {before secondary left right table}, holds before →
    before.registry.association secondary left right = .ok table →
    table.name ∉ before.tables.map AssociationTable.name →
    holds { before with tables := before.tables ++ [table] }
  key : ∀ {before target owning column nullable registry store}, holds before →
    before.registry.ensureForeignKey before.store target owning column nullable =
      .ok (registry, store) →
    holds { before with registry := registry, store := store }

namespace Invariant

variable (invariant : Invariant holds)

include invariant

theorem addForeignKey (target owning column : String) (nullable : Option Bool) :
    Preserves holds (addForeignKey target owning column nullable) := by
  intro before held
  unfold Compilation.addForeignKey
  simp only [CompileM.runOn_bind, CompileM.runOn_get]
  split
  · rename_i ensured
    exact invariant.key held ensured
  · exact held

theorem link (name : String) (relationship : Relationship) :
    Preserves holds (link name relationship) := by
  unfold Compilation.link
  split
  · refine .ask_bind fun before table held joined => ?_
    unfold addTable
    simp only [CompileM.runOn_bind, CompileM.runOn_get]
    split
    · rename_i notFound
      exact invariant.table held joined (by simpa [List.find?_eq_none] using notFound)
    · split <;> exact held
  · exact invariant.addForeignKey _ _ _ _
  · exact invariant.addForeignKey _ _ _ _
  · exact invariant.addForeignKey _ _ _ _

theorem linkProperties (name : String) (properties : Keyed Json) :
    Preserves holds (linkProperties name properties) := by
  induction properties with
  | nil => exact .pure _
  | cons entry rest ih =>
    refine .bind (.within _ (.ask _)) fun gathered => ?_
    cases gathered with
    | none => exact ih
    | some relationship =>
      exact .bind (.within _ (invariant.link name relationship)) fun _ => .bind ih fun _ => .pure _

end Invariant

/-- What is left to do for an entity with a table once its extension keywords are checked. -/
def linkedModel (name tablename : String) (schema : Json) (own : Registry.OwnSchema) :
    CompileM (Option Model) := do
  let gathered ← linkProperties name (← ask fun _ => propertiesOf own.fields)
  let linked := ((← get).registry.get? name).getD schema
  return some (← ask fun registry => do
    let flat ← registry.flattenWithout own.parent name linked
    model registry name tablename own.parent gathered flat.fields)

theorem Invariant.compileEntity (invariant : Invariant holds) (config : Config) (name : String) :
    Preserves holds (compileEntity config name) := by
  refine .bind .get fun before => ?_
  dsimp only
  split
  · exact .pure _
  · rename_i schema _
    refine .bind (.ask _) fun own => .bind (.ask _) fun tablename => ?_
    split
    · exact .pure _
    · rename_i tablename
      have linked : Preserves holds (linkedModel name tablename schema own) :=
        .bind (.ask _) fun properties => .bind (invariant.linkProperties name properties)
          fun gathered => .bind .get fun state => .bind (.ask _) fun model => .pure _
      split
      · exact .bind (.ask _) fun _ => linked
      · exact linked

theorem steps_invariant (start : Compilation) : Invariant (Steps names start) where
  table steps _ fresh := steps.tail (.table fresh)
  key steps ensured := steps.tail (.key ensured)

/-- A computation that makes such changes only, whether it succeeds or fails. -/
def Moves (names : List String) (action : CompileM α) : Prop :=
  ∀ before, Steps names before (action.runOn before).2

theorem Moves.steps {action : CompileM α} {before after : Compilation}
    {result : Except SchemaError α} (moves : Moves names action)
    (ran : action.runOn before = (result, after)) : Steps names before after := by
  have made := moves before
  rwa [ran] at made

theorem addForeignKey_moves (target owning column : String) (nullable : Option Bool) :
    Moves names (addForeignKey target owning column nullable) := fun before =>
  (steps_invariant before).addForeignKey target owning column nullable before .refl

theorem link_moves (name : String) (relationship : Relationship) :
    Moves names (link name relationship) := fun before =>
  (steps_invariant before).link name relationship before .refl

theorem linkProperties_moves (name : String) (properties : Keyed Json) :
    Moves names (linkProperties name properties) := fun before =>
  (steps_invariant before).linkProperties name properties before .refl

theorem compileEntity_moves (config : Config) (name : String) :
    Moves names (compileEntity config name) := fun before =>
  (steps_invariant before).compileEntity config name before .refl

/-- How an entity is compiled to a model: what is its own, the relationships that are gathered and
linked, and the schema that is left when they are linked. -/
structure EntityRun (name : String) (before after : Compilation) (model : Model) where
  schema : Json
  own : Registry.OwnSchema
  tablename : String
  properties : Keyed Json
  gathered : Keyed Relationship
  flat : FlatSchema
  registered : before.registry.get? name = some schema
  ownFound : before.registry.ownSchema name schema = .ok own
  hasTable : own.keywords.tablename? = .ok (some tablename)
  propertiesFound : propertiesOf own.fields = .ok properties
  linked : (linkProperties name properties).runOn before = (.ok gathered, after)
  flattened : after.registry.flattenWithout own.parent name
    ((after.registry.get? name).getD schema) = .ok flat
  built : Compilation.model after.registry name tablename own.parent gathered flat.fields =
    .ok model

/-- How what is left to do for an entity with a table succeeds. -/
theorem linkedModel_eq_ok {name tablename : String} {schema : Json} {own : Registry.OwnSchema}
    {before after : Compilation} {made : Option Model} :
    (linkedModel name tablename schema own).runOn before = (.ok made, after) ↔
      ∃ properties gathered flat built, propertiesOf own.fields = .ok properties ∧
        (linkProperties name properties).runOn before = (.ok gathered, after) ∧
        after.registry.flattenWithout own.parent name
          ((after.registry.get? name).getD schema) = .ok flat ∧
        model after.registry name tablename own.parent gathered flat.fields = .ok built ∧
        made = some built := by
  constructor
  · intro linked
    obtain ⟨properties, middle, asked, linked⟩ := CompileM.runOn_bind_eq_ok.mp linked
    obtain ⟨propertiesFound, rfl⟩ := Prod.mk.inj asked
    obtain ⟨gathered, middle, linkedAll, linked⟩ := CompileM.runOn_bind_eq_ok.mp linked
    obtain ⟨state, last, got, linked⟩ := CompileM.runOn_bind_eq_ok.mp linked
    obtain ⟨rfl, rfl⟩ : middle = state ∧ middle = last := by simpa using got
    obtain ⟨built, last, asked, linked⟩ := CompileM.runOn_bind_eq_ok.mp linked
    obtain ⟨modelFound, rfl⟩ := Prod.mk.inj asked
    obtain ⟨flat, flattened, builtFound⟩ := bind_eq_ok.mp modelFound
    obtain ⟨sameMade, rfl⟩ := Prod.mk.inj linked
    exact ⟨properties, gathered, flat, built, propertiesFound, linkedAll, flattened, builtFound,
      (Except.ok.inj sameMade).symm⟩
  · rintro ⟨properties, gathered, flat, built, propertiesFound, linkedAll, flattened, builtFound,
      rfl⟩
    refine CompileM.runOn_bind_eq_ok.mpr ⟨properties, before, by rw [CompileM.runOn_ask,
      propertiesFound], ?_⟩
    refine CompileM.runOn_bind_eq_ok.mpr ⟨gathered, after, linkedAll, ?_⟩
    refine CompileM.runOn_bind_eq_ok.mpr ⟨after, after, CompileM.runOn_get after, ?_⟩
    refine CompileM.runOn_bind_eq_ok.mpr ⟨built, after, ?_, rfl⟩
    rw [CompileM.runOn_ask, flattened, ok_bind, builtFound]

/-- How an entity is compiled: it is not registered, it has no table, or it becomes a model. -/
theorem compileEntity_eq_ok {config : Config} {name : String} {before after : Compilation}
    {made : Option Model} : (compileEntity config name).runOn before = (.ok made, after) ↔
      (before.registry.get? name = none ∧ made = none ∧ before = after) ∨
      ∃ schema own tablename, before.registry.get? name = some schema ∧
        before.registry.ownSchema name schema = .ok own ∧
        own.keywords.tablename? = .ok tablename ∧
        match tablename with
        | none => made = none ∧ before = after
        | some tablename =>
            (config.validateExtensions = true →
              before.registry.validateEntity name schema = .ok ()) ∧
            (linkedModel name tablename schema own).runOn before = (.ok made, after) := by
  unfold compileEntity
  rw [CompileM.runOn_bind, CompileM.runOn_get]
  dsimp only
  cases registered : before.registry.get? name with
  | none => simp [@eq_comm _ none made]
  | some schema =>
  simp only [reduceCtorEq, false_and, false_or, Option.some.injEq, exists_and_left,
    exists_eq_left', CompileM.runOn_bind_eq_ok, CompileM.runOn_ask, Prod.mk.injEq]
  constructor
  · rintro ⟨own, _, ⟨ownFound, rfl⟩, tablename, _, ⟨hasTable, rfl⟩, compiled⟩
    refine ⟨own, ownFound, tablename, hasTable, ?_⟩
    cases tablename with
    | none =>
      obtain ⟨sameMade, rfl⟩ := Prod.mk.inj compiled
      exact ⟨(Except.ok.inj sameMade).symm, rfl⟩
    | some tablename =>
      dsimp only at compiled ⊢
      split at compiled
      · obtain ⟨_, middle, asked, compiled⟩ := CompileM.runOn_bind_eq_ok.mp compiled
        obtain ⟨valid, rfl⟩ := Prod.mk.inj asked
        exact ⟨fun _ => valid, compiled⟩
      · rename_i notValidated
        exact ⟨fun validated => absurd validated notValidated, compiled⟩
  · rintro ⟨own, ownFound, tablename, hasTable, compiled⟩
    refine ⟨own, before, ⟨ownFound, rfl⟩, tablename, before, ⟨hasTable, rfl⟩, ?_⟩
    cases tablename with
    | none =>
      obtain ⟨rfl, rfl⟩ := compiled
      rfl
    | some tablename =>
      obtain ⟨valid, compiled⟩ := compiled
      dsimp only
      split
      · rename_i validated
        exact CompileM.runOn_bind_eq_ok.mpr
          ⟨(), before, by rw [CompileM.runOn_ask, valid validated], compiled⟩
      · exact compiled

theorem entityRun_of_compileEntity {config : Config} {name : String} {before after : Compilation}
    {model : Model}
    (compiled : (compileEntity config name).runOn before = (.ok (some model), after)) :
    Nonempty (EntityRun name before after model) := by
  rcases compileEntity_eq_ok.mp compiled with ⟨-, isNone, -⟩ |
    ⟨schema, own, tablename, registered, ownFound, hasTable, compiled⟩
  · cases isNone
  cases tablename with
  | none => cases compiled.1
  | some tablename =>
    obtain ⟨properties, gathered, flat, built, propertiesFound, linked, flattened, builtFound,
      sameModel⟩ := linkedModel_eq_ok.mp compiled.2
    obtain rfl := Option.some.inj sameModel
    exact ⟨⟨schema, own, tablename, properties, gathered, flat, registered, ownFound, hasTable,
      propertiesFound, linked, flattened, builtFound⟩⟩

/-- Where the parts of a model come from. -/
structure ModelOf (registry : Registry) (name tablename : String) (parent : Option String)
    (gathered : Keyed Relationship) (own : Keyed Json) (built : Model) : Prop where
  name : built.name = name
  tablename : built.tablename = tablename
  parent : built.parent = parent
  required : built.required = requiredOf own
  properties : ∃ declared, propertiesOf own = .ok declared ∧
    modelProperties registry (requiredOf own) gathered declared = .ok built.properties
  indexes : ∃ found, (presentValue? own "x-composite-index").mapM Extension.compositeIndexes =
    .ok found ∧ built.compositeIndexes = found.getD []
  uniques : ∃ found, (presentValue? own "x-composite-unique").mapM Extension.compositeUniques =
    .ok found ∧ built.compositeUniques = found.getD []
  mixins : ∃ found, (presentValue? own "x-mixins").mapM Extension.mixins = .ok found ∧
    built.mixins = found.getD []
  arguments : (Keyed.get? own "x-kwargs").mapM (Extension.arguments .entity) = .ok built.arguments

theorem modelOf_of_model {registry : Registry} {name tablename : String} {parent : Option String}
    {gathered : Keyed Relationship} {own : Keyed Json} {built : Model}
    (compiled : model registry name tablename parent gathered own = .ok built) :
    ModelOf registry name tablename parent gathered own built := by
  unfold model at compiled
  obtain ⟨description, -, compiled⟩ := bind_eq_ok.mp compiled
  obtain ⟨properties, found, compiled⟩ := bind_eq_ok.mp compiled
  obtain ⟨compiledProperties, made, compiled⟩ := bind_eq_ok.mp compiled
  simp only [bind_eq_ok, pure_eq_ok, Except.ok.injEq] at compiled
  obtain ⟨indexes, foundIndexes, uniques, foundUniques, mixins, foundMixins, arguments,
    foundArguments, rfl⟩ := compiled
  exact ⟨rfl, rfl, rfl, rfl, ⟨properties, found, made⟩, ⟨indexes, foundIndexes, rfl⟩,
    ⟨uniques, foundUniques, rfl⟩, ⟨mixins, foundMixins, rfl⟩, foundArguments⟩

theorem model_eq_ok {registry : Registry} {name tablename : String} {parent : Option String}
    {gathered : Keyed Relationship} {own : Keyed Json} {built : Model}
    (compiled : model registry name tablename parent gathered own = .ok built) :
    built.name = name ∧ ∃ properties, propertiesOf own = .ok properties ∧
      modelProperties registry (requiredOf own) gathered properties = .ok built.properties :=
  ⟨(modelOf_of_model compiled).name, (modelOf_of_model compiled).properties⟩

/-- Add the model of an entity, if it has one. -/
def record (state : Compilation) : Option Model → Compilation
  | none => state
  | some model => { state with store := ModelStore.add state.store model }

theorem compileEntities_cons (config : Config) (name : String) (rest : List String)
    (before : Compilation) : (compileEntities config (name :: rest)).runOn before =
      match (compileEntity config name).runOn before with
      | (.ok model, after) => (compileEntities config rest).runOn (after.record model)
      | (.error e, after) => (.error (.inContext name e), after) := by
  rw [compileEntities, CompileM.runOn_bind, CompileM.runOn_within]
  generalize (compileEntity config name).runOn before = left
  obtain ⟨result, after⟩ := left
  cases result with
  | error e => rfl
  | ok model => cases model <;> rfl

/-- How some entities are compiled: the first one is, and then the others. -/
theorem compileEntities_cons_eq_ok {config : Config} {name : String} {rest : List String}
    {before last : Compilation} :
    (compileEntities config (name :: rest)).runOn before = (.ok (), last) ↔
      ∃ made after, (compileEntity config name).runOn before = (.ok made, after) ∧
        (compileEntities config rest).runOn (after.record made) = (.ok (), last) := by
  rw [compileEntities_cons]
  cases (compileEntity config name).runOn before with
  | mk result after =>
    cases result with
    | error e => simp
    | ok made => simp

/-- What holds of a run so far holds after some entities are compiled, if linking keeps it and adding
the model of an entity does. -/
theorem Invariant.compileEntities (invariant : Invariant holds) (config : Config)
    {list : List String}
    (models : ∀ name ∈ list, ∀ before after built, holds before → holds after →
      EntityRun name before after built →
      holds { after with store := ModelStore.add after.store built }) :
    Preserves holds (compileEntities config list) := by
  induction list with
  | nil => exact .pure _
  | cons name rest ih =>
    intro before held
    have heldThen := invariant.compileEntity config name before held
    rw [compileEntities_cons]
    cases compiled : (Compilation.compileEntity config name).runOn before with
    | mk result after =>
      rw [compiled] at heldThen
      cases result with
      | error e => exact heldThen
      | ok made =>
        refine ih (fun other member => models other (List.mem_cons_of_mem _ member)) _ ?_
        cases made with
        | none => exact heldThen
        | some built =>
          obtain ⟨run⟩ := entityRun_of_compileEntity compiled
          exact models name List.mem_cons_self before after built held heldThen run

theorem record_steps {config : Config} {name : String} {before after : Compilation}
    {model : Option Model}
    (compiled : (compileEntity config name).runOn before = (.ok model, after))
    (member : name ∈ names) : Steps names after (after.record model) := by
  cases model with
  | none => exact .refl
  | some model =>
    obtain ⟨run⟩ := entityRun_of_compileEntity compiled
    exact .single (.model after ((model_eq_ok run.built).1 ▸ member))

theorem compileEntities_moves (config : Config) (list : List String) (subset : list ⊆ names) :
    Moves names (compileEntities config list) := by
  intro before
  refine (steps_invariant before).compileEntities config ?_ before .refl
  intro name member _ after built _ steps run
  exact steps.tail (.model after ((model_eq_ok run.built).1 ▸ subset member))

/-- The state from which the entities of a registry are compiled: its place is set, and the back
references are added. What was added before an error stays. -/
def prepared (config : Config) (registry : Registry) : Except SchemaError Unit × Compilation :=
  let placed := match config.specPath with
    | some path => { registry with place := some path }
    | none => registry
  if config.processBackrefs then
    (placed.addAllBackrefs.2, start placed.addAllBackrefs.1)
  else (.ok (), start placed)

theorem prepared_store (config : Config) (registry : Registry) :
    (prepared config registry).2.store = [] := by
  rcases config with ⟨_ | path, validate, _ | _⟩ <;> rfl

/-- The registry with its place set, as a compilation begins with it. -/
def placed (config : Config) (registry : Registry) : Registry :=
  match config.specPath with
  | some path => { registry with place := some path }
  | none => registry

theorem prepared_eq (config : Config) (registry : Registry) : prepared config registry =
    if config.processBackrefs then
      ((placed config registry).addAllBackrefs.2, start (placed config registry).addAllBackrefs.1)
    else (.ok (), start (placed config registry)) := rfl

theorem placed_entries (config : Config) (registry : Registry) :
    (placed config registry).entries = registry.entries := by
  unfold placed
  split <;> rfl

theorem placed_documents (config : Config) (registry : Registry) :
    (placed config registry).documents = registry.documents := by
  unfold placed
  split <;> rfl

theorem prepared_eq_start (config : Config) (registry : Registry) :
    (prepared config registry).2 = start (prepared config registry).2.registry := by
  rw [prepared_eq]
  split <;> rfl

/-- What is left to do once the registry is prepared. -/
def compileAll (config : Config) : CompileM CompiledSchema := do
  compileEntities config (← get).registry.names
  let state ← get
  return ⟨state.store, state.tables⟩

theorem runOn_addBackrefs (before : Compilation) : addBackrefs.runOn before =
    (before.registry.addAllBackrefs.2,
      { before with registry := before.registry.addAllBackrefs.1 }) := by
  unfold addBackrefs
  simp only [CompileM.runOn_bind, CompileM.runOn_get, CompileM.runOn_set]
  cases before.registry.addAllBackrefs.2 <;> rfl

/-- A run prepares the registry, then compiles its entities. -/
theorem runOn_run (config : Config) (registry : Registry) :
    (run config).runOn (start registry) =
      match prepared config registry with
      | (.error e, state) => (.error e, state)
      | (.ok _, state) => (compileAll config).runOn state := by
  have backrefs : ∀ before : Compilation,
      (addBackrefs >>= fun _ => compileAll config).runOn before =
        match before.registry.addAllBackrefs with
        | (next, .error e) => (.error e, { before with registry := next })
        | (next, .ok _) => (compileAll config).runOn { before with registry := next } := by
    intro before
    rw [CompileM.runOn_bind, runOn_addBackrefs]
    cases before.registry.addAllBackrefs with
    | mk next result => cases result <;> rfl
  rcases config with ⟨_ | path, validate, _ | _⟩
  · rfl
  · refine (backrefs _).trans ?_
    simp only [prepared, start, if_true]
    cases registry.addAllBackrefs with
    | mk next result => cases result <;> rfl
  · rfl
  · refine (backrefs _).trans ?_
    simp only [prepared, start, if_true]
    cases ({ registry with place := some path } : Registry).addAllBackrefs with
    | mk next result => cases result <;> rfl

end Compilation

open Compilation in
/-- A compilation prepares the registry, then compiles its entities in their order. -/
theorem Registry.compile_eq (registry : Registry) (config : Config) :
    registry.compile config =
      match prepared config registry with
      | (.error e, state) => (.error e, state.registry)
      | (.ok _, state) =>
          match (compileEntities config state.registry.names).runOn state with
          | (.error e, after) => (.error e, after.registry)
          | (.ok _, after) => (.ok ⟨after.store, after.tables⟩, after.registry) := by
  have compiled : registry.compile config =
      (((run config).runOn (start registry)).1,
        ((run config).runOn (start registry)).2.registry) := rfl
  rw [compiled, runOn_run]
  cases prepared config registry with
  | mk result state =>
    cases result with
    | error e => rfl
    | ok _ =>
      simp only [compileAll, CompileM.runOn_bind, CompileM.runOn_get]
      cases (compileEntities config state.registry.names).runOn state with
      | mk result after => cases result <;> rfl

open Compilation in
/-- How a compilation succeeds: what it returns is what its run has made in the end. -/
theorem Registry.compile_eq_ok_iff {registry final : Registry} {config : Config}
    {result : CompiledSchema} : registry.compile config = (.ok result, final) ↔
      (prepared config registry).1 = .ok () ∧
      ∃ after, (compileEntities config (prepared config registry).2.registry.names).runOn
          (prepared config registry).2 = (.ok (), after) ∧
        result = ⟨after.store, after.tables⟩ ∧ final = after.registry := by
  rw [compile_eq]
  generalize prepared config registry = start
  obtain ⟨outcome, state⟩ := start
  cases outcome with
  | error e => simp
  | ok _ =>
    dsimp only
    cases (compileEntities config state.registry.names).runOn state with
    | mk outcome after =>
      cases outcome with
      | error e => simp
      | ok _ => simp [eq_comm]

end EntityMapping
