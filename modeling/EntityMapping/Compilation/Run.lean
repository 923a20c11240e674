import EntityMapping.Compilation.Config
import EntityMapping.Extension.Validation
import EntityMapping.Relationship.BackReferences
import EntityMapping.Table.Association

/-!
Compiling a registry. Every entity with a table becomes a model, in the order of the registry. On
the way, back references and foreign key columns are added to the entities that need them, and
association tables are collected. The first error ends the run; what was changed before it stays.
-/

set_option autoImplicit false
set_option relaxedAutoImplicit false

namespace EntityMapping

/-- What a run has made so far. -/
structure Compilation where
  registry : Registry
  store : ModelStore
  tables : List AssociationTable

/-- What a registry compiles to. -/
structure CompiledSchema where
  models : List Model
  associationTables : List AssociationTable

namespace CompiledSchema

/-- The model of an entity. -/
def model? (compiled : CompiledSchema) (name : String) : Option Model :=
  compiled.models.find? fun model => model.name = name

/-- The association table of a name. -/
def table? (compiled : CompiledSchema) (name : String) : Option AssociationTable :=
  compiled.associationTables.find? fun table => table.name = name

end CompiledSchema

/-- A step of a run. It may fail, and keeps what it changed before. -/
abbrev CompileM := ExceptT SchemaError (StateM Compilation)

namespace Compilation

/-- Before the run. -/
def start (registry : Registry) : Compilation := ⟨registry, [], []⟩

/-- A computation about the registry as it is now. -/
def ask {α : Type} (query : Registry → Except SchemaError α) : CompileM α := do
  let state ← get
  liftExcept (query state.registry)
where
  liftExcept {α : Type} (result : Except SchemaError α) : CompileM α := ExceptT.mk (pure result)

/-- Add the entity or property that a step is about to its error. -/
def within {α : Type} (context : String) (step : CompileM α) : CompileM α :=
  ExceptT.mk do return inContext context (← step.run)

/-- Collect an association table. A table that is there already must be the same. -/
def addTable (table : AssociationTable) : CompileM Unit := do
  let state ← get
  match state.tables.find? fun existing => existing.name = table.name with
  | none => set { state with tables := state.tables ++ [table] }
  | some existing =>
      if !existing.isEquivalent table then
        throw (.malformedRelationship (.associationConflict table.name))

/-- Add a foreign key column where an entity needs one. -/
def addForeignKey (target owning column : String) (nullable : Option Bool) : CompileM Unit := do
  let state ← get
  match state.registry.ensureForeignKey state.store target owning column nullable with
  | .ok (registry, store) => set { state with registry := registry, store := store }
  | .error error => throw error

/-- Add what a relationship of an entity needs: an association table, or a foreign key column on
the entity or on the one that it refers to. -/
def link (name : String) (relationship : Relationship) : CompileM Unit :=
  let column := relationship.foreignKeyColumn
  match relationship.cardinality with
  | .manyToMany secondary => do
      addTable (← ask fun registry => registry.association secondary name relationship.modelName)
  | .oneToMany => addForeignKey relationship.modelName name column none
  | .manyToOne => addForeignKey name relationship.modelName column relationship.nullable
  | .oneToOne => addForeignKey name relationship.modelName column relationship.nullable

/-- The properties of a flat entity, which must be an object if they are there. -/
def propertiesOf (entity : Keyed Json) : Except SchemaError (Keyed Json) :=
  match Keyed.get? entity "properties" with
  | none => .ok []
  | some (.obj properties) => .ok properties
  | some _ => .error (.malformedSchema .propertiesNotObject)

/-- Gather and link the relationships among some properties of an entity. -/
def linkProperties (name : String) : Keyed Json → CompileM (Keyed Relationship)
  | [] => return []
  | (property, schema) :: rest => do
      match ← within property (ask fun registry => registry.gather? property schema) with
      | none => linkProperties name rest
      | some relationship =>
          within property (link name relationship)
          return (property, relationship) :: (← linkProperties name rest)

/-- A property that is stored in a column; none if it is not stored. -/
def columnProperty? (registry : Registry) (required : List String) (property : String)
    (schema : Json) : Except SchemaError (Option ModelProperty) := do
  let flat ← registry.flatten property schema
  let type ← flat.keywords.primitiveType
  let json := (← flat.keywords.json?) = some true
  if !type.isScalar && !json then return none
  let column ← Column.ofSchema flat.schema (some (required.contains property))
  return some ⟨property, .column column, flat.schema⟩

/-- The properties of a model: relationships as they were gathered, and columns. -/
def modelProperties (registry : Registry) (required : List String)
    (gathered : Keyed Relationship) : Keyed Json → Except SchemaError (List ModelProperty)
  | [] => .ok []
  | (property, schema) :: rest => do
      let compiled ← match Keyed.get? gathered property with
        | some relationship =>
            pure (some ⟨property, .relationship relationship, relationship.propertySchema⟩)
        | none => inContext property (columnProperty? registry required property schema)
      let others ← modelProperties registry required gathered rest
      return compiled.toList ++ others

/-- The texts among the required properties. -/
def requiredOf (entity : Keyed Json) : List String :=
  (((Keyed.get? entity "required").bind Json.items?).getD []).filterMap Json.string?

/-- The model of an entity whose relationships are linked. -/
def model (registry : Registry) (name tablename : String) (parent : Option String)
    (gathered : Keyed Relationship) (own : Keyed Json) : Except SchemaError Model := do
  let read := KeywordReader.ofFields own
  let required := requiredOf own
  let description ← read.description?
  let properties ← modelProperties registry required gathered (← propertiesOf own)
  let indexes ← (presentValue? own "x-composite-index").mapM Extension.compositeIndexes
  let uniques ← (presentValue? own "x-composite-unique").mapM Extension.compositeUniques
  let mixins ← (presentValue? own "x-mixins").mapM Extension.mixins
  let arguments ← (Keyed.get? own "x-kwargs").mapM (Extension.arguments .entity)
  return {
    name := name
    tablename := tablename
    parent := parent
    description := description
    properties := properties
    required := required
    backrefs := ((Keyed.get? own "x-backrefs").bind Json.fields?).getD []
    compositeIndexes := indexes.getD []
    compositeUniques := uniques.getD []
    mixins := mixins.getD []
    arguments := arguments }

/-- Compile an entity; none if it has no table. Relationships come first, since they may add
columns to the entity itself. -/
def compileEntity (config : Config) (name : String) : CompileM (Option Model) := do
  match (← get).registry.get? name with
  | none => return none
  | some schema =>
      let own ← ask fun registry => registry.ownSchema name schema
      match ← ask fun _ => own.keywords.tablename? with
      | none => return none
      | some tablename =>
          if config.validateExtensions then
            ask fun registry => registry.validateEntity name schema
          let gathered ← linkProperties name (← ask fun _ => propertiesOf own.fields)
          let linked := ((← get).registry.get? name).getD schema
          return some (← ask fun registry => do
            let flat ← registry.flattenWithout own.parent name linked
            model registry name tablename own.parent gathered flat.fields)

/-- Compile some entities. -/
def compileEntities (config : Config) : List String → CompileM Unit
  | [] => return
  | name :: rest => do
      match ← within name (compileEntity config name) with
      | none => pure ()
      | some model =>
          modify fun state => { state with store := ModelStore.add state.store model }
      compileEntities config rest

/-- Add the back references of the registry. -/
def addBackrefs : CompileM Unit := do
  let state ← get
  let (registry, result) := state.registry.addAllBackrefs
  set { state with registry := registry }
  match result with
  | .ok () => return
  | .error error => throw error

/-- A whole run. -/
def run (config : Config) : CompileM CompiledSchema := do
  if let some path := config.specPath then
    modify fun state => { state with registry := { state.registry with place := some path } }
  if config.processBackrefs then addBackrefs
  compileEntities config (← get).registry.names
  let state ← get
  return ⟨state.store, state.tables⟩

end Compilation

namespace Registry

/-- Compile a registry. The registry as the run leaves it is returned also if the run fails. -/
def compile (registry : Registry) (config : Config) :
    Except SchemaError CompiledSchema × Registry :=
  let (result, state) := (Compilation.run config).run.run (Compilation.start registry)
  (result, state.registry)

/-- Compile the registry of the document at a path. -/
def compileFile (documents : Documents) (path : String) (config : Config) :
    Except SchemaError (CompiledSchema × Registry) := do
  let registry ← load documents path
  let (result, compiled) := registry.compile config
  return (← result, compiled)

end Registry

end EntityMapping
