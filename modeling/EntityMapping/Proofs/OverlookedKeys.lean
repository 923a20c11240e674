import Mathlib
import EntityMapping.Proofs.CarriedKeys
import EntityMapping.Proofs.Moments
import EntityMapping.Proofs.PreparedRegistries

/-!
Foreign keys of compiled models. A relationship without an association table needs a key column on
the model of one of its entities. The column is there in the end, unless it was overlooked: when the
relationship was linked, a property of its name was there on the model or among those that the
entity declares, and the model does not have it as the key. So it is for a model that was built
before its entity got the column from another entity that it is composed of.
-/

set_option autoImplicit false
set_option relaxedAutoImplicit false

namespace EntityMapping

open ForeignKey (Source IsKeySchema)
open Model (ColumnsAdded)
open Registry (wrap propertyFragment)

namespace Model

/-- A column of the model has a name, and points at a column of a table. -/
def HasKey (model : Model) (property pointsAt : String) : Prop :=
  ∃ column, model.column? property = some column ∧ column.foreignKey = some pointsAt

variable {before after : Model} {property pointsAt : String}

theorem hasKey_congr (same : after.property? property = before.property? property) :
    after.HasKey property pointsAt ↔ before.HasKey property pointsAt := by
  unfold HasKey column?
  rw [same]

theorem hasKey_of_property? {column : Column} {schema : Json}
    (found : before.property? property = some ⟨property, .column column, schema⟩)
    (points : column.foreignKey = some pointsAt) : before.HasKey property pointsAt := by
  refine ⟨column, ?_, points⟩
  rw [column?, found]
  rfl

theorem ColumnsAdded.hasKey (added : ColumnsAdded before after)
    (has : before.hasProperty property = true) :
    after.HasKey property pointsAt ↔ before.HasKey property pointsAt := by
  obtain ⟨found, isFirst⟩ := Option.isSome_iff_exists.mp has
  exact hasKey_congr ((added.property? isFirst).trans isFirst.symm)

theorem hasProperty_of_hasKey (has : before.HasKey property pointsAt) :
    before.hasProperty property = true := by
  obtain ⟨column, found, -⟩ := has
  obtain ⟨first, isFirst, -⟩ := Option.bind_eq_some_iff.mp found
  exact Option.isSome_iff_exists.mpr ⟨first, isFirst⟩

end Model

namespace Compilation

/-- A property of the name of a key column is there when a relationship is linked, on the model of
the entity that needs the column or among the properties that it declares; but the model, as it is
then or as it is made later, does not have the key. -/
def KeyOverlooked (config : Config) (registry : Registry) (name property holder : String)
    (key pointsAt : String) : Prop :=
  let state := linking config registry name property
  (ModelStore.hasProperty state.store holder key = true ∨
      key ∈ Keyed.keys (state.registry.declared holder)) ∧
    ∃ model, (ModelStore.get? state.store holder).or (made? config registry holder) = some model ∧
      ¬ model.HasKey key pointsAt

variable {names : List String} {name column : String} {before state next after : Compilation}
  {model built : Model} {schema : Json} {own : Registry.OwnSchema} {source : Source}

namespace EntityRun

theorem keys_gathered (run : EntityRun name before after built) :
    Keyed.keys run.gathered ⊆ Keyed.keys (before.registry.declared name) := by
  intro key member
  obtain ⟨entry, inGathered, rfl⟩ := List.mem_map.mp member
  obtain ⟨schema, _, inProperties, -⟩ := gathered_of_linkProperties run.linked entry inGathered
  rw [← run.properties_eq]
  exact List.mem_map.mpr ⟨_, inProperties, rfl⟩

variable {property pointsAt : String} {fields : Keyed Json} {type : PrimitiveType}

/-- A key column that was written before is no relationship of the entity. -/
theorem not_gathered (run : EntityRun name before after built)
    (keyed : before.registry.WellKeyed)
    (carries : before.registry.CarriesKey name property fields)
    (isKey : IsKeySchema fields type pointsAt) (scalar : type.isScalar = true) :
    property ∉ Keyed.keys run.gathered := by
  intro member
  obtain ⟨⟨_, relationship⟩, inGathered, rfl⟩ := List.mem_map.mp member
  obtain ⟨schema, registry, inProperties, isGathered⟩ :=
    gathered_of_linkProperties run.linked _ inGathered
  obtain ⟨-, flat, flattened, same⟩ := Registry.ownSchema_eq_ok.mp run.ownFound
  have has := carries.hasProperty run.registered flattened
  rw [same] at has
  have found := has.propertiesIn
  rw [← Registry.declared_eq run.registered run.ownFound] at found
  rw [run.properties_eq] at inProperties
  have foundToo := Keyed.get?_of_mem (keyed.distinct_declared name) inProperties
  obtain rfl := Option.some.inj (found.symm.trans foundToo)
  cases (isKey.gather? scalar).symm.trans isGathered

/-- A key column that has been written when the model is built is a column of the model. -/
theorem hasKey (run : EntityRun name before after built)
    (carries : after.registry.CarriesKey name property fields)
    (isKey : IsKeySchema fields type pointsAt) (scalar : type.isScalar = true)
    (notGathered : property ∉ Keyed.keys run.gathered) : built.HasKey property pointsAt := by
  obtain ⟨schema, entry⟩ : ∃ schema, after.registry.get? name = some schema := by
    obtain ⟨base, keys, carried, -⟩ := carries
    exact ⟨_, carried⟩
  have flattened := run.flattened
  rw [entry, Option.getD_some] at flattened
  have has := carries.hasProperty entry flattened
  obtain ⟨-, properties, found, compiled⟩ := model_eq_ok run.built
  obtain rfl := propertiesOf_eq_ok found
  obtain ⟨column, isFirst, points⟩ :=
    find?_key_of_modelProperties isKey scalar compiled has.propertiesIn notGathered
  exact Model.hasKey_of_property? isFirst points

end EntityRun

/-- A property that is found on an entity's own schema is declared. -/
theorem declared_of_flatProperty? {existing : FlatSchema} {property : String}
    (entry : state.registry.get? name = some schema)
    (ownFound : state.registry.ownSchema name schema = .ok own)
    (found : state.registry.flatProperty? own.fields property = .ok (some existing)) :
    property ∈ Keyed.keys (state.registry.declared name) := by
  by_contra absent
  have missing := (Registry.not_declared_of_flatProperty? entry ownFound).mpr absent
  cases missing.symm.trans found

/-- Where the model has been built when a key is ensured, the key is overlooked exactly if the model
does not have it, but has a property of its name, or declares one in the registry by now. -/
theorem hasKey_of_built (keyed : state.registry.WellKeyed)
    (entry : state.registry.get? name = some schema)
    (ownFound : state.registry.ownSchema name schema = .ok own)
    (change : state.registry.EnsuresKey state.store name column schema own source next.registry
      next.store)
    (linked : Steps names state next) (later : Steps names next after) (other : name ∉ names)
    (found : ModelStore.get? state.store name = some built)
    (foundLater : ModelStore.get? after.store name = some model) :
    model.HasKey (source.property column) (source.pointsAt column) ↔
      ¬ ((built.hasProperty (source.property column) = true ∨
          source.property column ∈ Keyed.keys (state.registry.declared name)) ∧
        ¬ built.HasKey (source.property column) (source.pointsAt column)) := by
  have toEnd : Steps names state after := linked.trans later
  have isBuilt : ModelStore.isBuilt state.store name = true := by simp [ModelStore.isBuilt, found]
  have hasProperty : ModelStore.hasProperty state.store name (source.property column) =
      built.hasProperty (source.property column) := by simp [ModelStore.hasProperty, found]
  generalize nextStore : next.store = nextModels at change
  generalize next.registry = nextRegistry at change
  cases change with
  | satisfied existing =>
    have isDeclared := declared_of_flatProperty? entry ownFound existing
    obtain ⟨last, isLast, same⟩ := toEnd.property? other keyed found isDeclared
    obtain rfl := Option.some.inj (isLast.symm.trans foundLater)
    simp [isDeclared, Model.hasKey_congr same]
  | taken _ has =>
    rw [hasProperty] at has
    obtain ⟨last, isLast, added⟩ := toEnd.built other found
    obtain rfl := Option.some.inj (isLast.symm.trans foundLater)
    simp [has, added.hasKey has]
  | @attached fields key missing isKey keyBuilt _ lacks =>
    rw [hasProperty] at lacks
    have absent := (Registry.not_declared_of_flatProperty? entry ownFound).mp missing
    have foundNext : ModelStore.get? next.store name =
        some (built.addColumn (source.property column) (.obj fields) key) := by
      rw [nextStore, ModelStore.get?_attach, if_pos rfl, found, Option.map_some]
    obtain ⟨last, isLast, added⟩ := later.built other foundNext
    obtain rfl := Option.some.inj (isLast.symm.trans foundLater)
    have first : built.property? (source.property column) = none := by
      simpa [Model.hasProperty] using lacks
    have attached := built.property?_addColumn (source.property column) (source.property column)
      (.obj fields) key
    rw [first, Option.none_or, if_pos rfl] at attached
    have has := Model.hasKey_of_property? (added.property? attached)
      (isKey.column_foreignKey keyBuilt)
    simp [has, lacks, absent]
  | written _ _ _ notBuilt => cases isBuilt.symm.trans notBuilt

/-- Where the model is built after a key has been ensured, the key is overlooked exactly if the
entity declares a property of its name already, and the model does not get it as the key. -/
theorem hasKey_of_later (keyed : state.registry.WellKeyed)
    (entry : state.registry.get? name = some schema)
    (ownFound : state.registry.ownSchema name schema = .ok own)
    (scalar : source.type.isScalar = true)
    (change : state.registry.EnsuresKey state.store name column schema own source next.registry
      next.store)
    (absent : ModelStore.get? state.store name = none) {start done : Compilation}
    {others : List String} (linked : Steps names state next)
    (run : EntityRun name start done built) (keyedStart : start.registry.WellKeyed)
    (order : Steps names start state ∨ Steps names next start) (toDone : Steps names next done)
    (recorded : ModelStore.get? (done.record (some built)).store name = some built)
    (later : Steps others (done.record (some built)) after) (notOther : name ∉ others)
    (foundLater : ModelStore.get? after.store name = some model) :
    model.HasKey (source.property column) (source.pointsAt column) ↔
      ¬ (source.property column ∈ Keyed.keys (state.registry.declared name) ∧
        ¬ built.HasKey (source.property column) (source.pointsAt column)) := by
  have toBuilt : Steps names state done := linked.trans toDone
  have keyedDone := toBuilt.keyed keyed
  generalize nextRegistry : next.registry = registry at change
  generalize next.store = store at change
  cases change with
  | satisfied existing =>
    have isDeclared := declared_of_flatProperty? entry ownFound existing
    have stillDeclared := toBuilt.declared keyed name isDeclared
    obtain ⟨last, isLast, same⟩ := later.property? notOther keyedDone recorded stillDeclared
    obtain rfl := Option.some.inj (isLast.symm.trans foundLater)
    simp [isDeclared, Model.hasKey_congr same]
  | taken _ has => simp [ModelStore.hasProperty, absent] at has
  | attached _ _ _ isBuilt _ => simp [ModelStore.isBuilt, absent] at isBuilt
  | @written fields missing isKey _ _ =>
    have fresh := (Registry.not_declared_of_flatProperty? entry ownFound).mp missing
    have carries : next.registry.CarriesKey name (source.property column) fields := by
      rw [nextRegistry]
      exact Registry.carriesKey_insert schema
    have notGathered : source.property column ∉ Keyed.keys run.gathered := by
      rcases order with before | behind
      · exact fun member => fresh (before.declared keyedStart name (run.keys_gathered member))
      · exact run.not_gathered keyedStart (behind.carriesKey carries) isKey scalar
    have has := run.hasKey (toDone.carriesKey carries) isKey scalar notGathered
    obtain ⟨last, isLast, added⟩ := later.built notOther recorded
    obtain rfl := Option.some.inj (isLast.symm.trans foundLater)
    have hasToo := (added.hasKey (Model.hasProperty_of_hasKey has)).mpr has
    simp [hasToo, fresh]

theorem keyOverlooked_iff {config : Config} {registry : Registry}
    {property holder key pointsAt : String}
    (found : (ModelStore.get? (linking config registry name property).store holder).or
      (made? config registry holder) = some model) :
    KeyOverlooked config registry name property holder key pointsAt ↔
      (ModelStore.hasProperty (linking config registry name property).store holder key = true ∨
        key ∈ Keyed.keys ((linking config registry name property).registry.declared holder)) ∧
      ¬ model.HasKey key pointsAt := by
  simp [KeyOverlooked, found]

/-- An entity that has a model already when the run comes to another one was compiled before. -/
theorem Visit.not_mem_of_built {config : Config} {registry : Registry} {other : String}
    (visit : Visit config registry name after)
    (nodup : (prepared config registry).2.registry.names.Nodup)
    (found : ModelStore.get? (reaching config registry name).store other ≠ none) :
    other ∉ name :: visit.later := by
  intro member
  refine found (visit.earlierSteps.not_built (fun inEarlier => ?_) (by rw [prepared_store]; rfl))
  rw [visit.names, List.nodup_append] at nodup
  exact nodup.2.2 other inEarlier other member rfl

/-- A key that is ensured for a relationship that is linked when the run has come to its entity. -/
theorem Visit.hasKey_iff {config : Config} {registry : Registry} {property target owning : String}
    {nullable : Option Bool} {holder : Model} (visit : Visit config registry name after)
    (succeeded : (compileEntities config (prepared config registry).2.registry.names).runOn
      (prepared config registry).2 = (.ok (), after))
    (keyed : (prepared config registry).2.registry.WellKeyed)
    (toState : Steps [] (reaching config registry name) (linking config registry name property))
    (ensured : (linking config registry name property).registry.ensureForeignKey
      (linking config registry name property).store target owning column nullable =
        .ok (next.registry, next.store))
    (toNext : Steps [] (linking config registry name property) next)
    (toDone : Steps [] next visit.done)
    (found : ModelStore.get? after.store target = some holder) :
    ∃ tablename, after.registry.HasTable owning tablename ∧
      (holder.HasKey (ForeignKey.propertyName tablename column)
          (ForeignKey.target tablename column) ↔
        ¬ KeyOverlooked config registry name property target
          (ForeignKey.propertyName tablename column) (ForeignKey.target tablename column)) := by
  have nodup : (prepared config registry).2.registry.names.Nodup := keyed.entries
  have keyedReached := visit.earlierSteps.keyed keyed
  have keyedState := toState.keyed keyedReached
  obtain ⟨schema, own, source, entry, ownFound, sourceFound, change⟩ :=
    Registry.ensuresKey_of_ensureForeignKey ensured
  obtain ⟨ownerSchema, owner, ownerEntry, flattened, table, -, -, scalar⟩ :=
    Registry.keySource_eq_ok.mp sourceFound
  have laterSteps := visit.laterSteps.mono (List.subset_cons_self name visit.later)
  have fromNext : Steps (name :: visit.later) next after :=
    ((toDone.mono (List.nil_subset _)).trans visit.recordSteps).trans laterSteps
  have linked : Steps (name :: visit.later) (linking config registry name property) next :=
    toNext.mono (List.nil_subset _)
  have toEnd : Steps (name :: visit.later) (linking config registry name property) after :=
    linked.trans fromNext
  have hasTable := toEnd.hasTable keyedState ⟨ownerSchema, owner, ownerEntry, flattened, table⟩
  refine ⟨source.tablename, hasTable, ?_⟩
  cases atLink : ModelStore.get? (linking config registry name property).store target with
  | some built =>
    have isBuilt : ModelStore.get? (reaching config registry name).store target ≠ none := by
      intro absent
      cases (toState.not_built List.not_mem_nil absent).symm.trans atLink
    have other := visit.not_mem_of_built nodup isBuilt
    rw [keyOverlooked_iff (by rw [atLink]; rfl), ModelStore.hasProperty, atLink, Option.any_some]
    exact hasKey_of_built keyedState entry ownFound change linked fromNext other atLink found
  | none =>
    have member : target ∈ name :: visit.later := by
      by_contra other
      cases (toEnd.not_built other atLink).symm.trans found
    obtain ⟨other, order, toTarget⟩ := visit.exists_visit succeeded nodup toState toDone member
    obtain ⟨built, made, ⟨run⟩, recorded⟩ := other.run_of_get? found
    have later := other.laterSteps
    rw [made] at recorded later
    have notThere : ModelStore.hasProperty (linking config registry name property).store target
        (source.property column) = false := by simp [ModelStore.hasProperty, atLink]
    rw [keyOverlooked_iff (by rw [atLink, other.made_eq, made]; rfl), ← Source.property,
      ← Source.pointsAt, notThere]
    simpa using hasKey_of_later keyedState entry ownFound scalar change atLink linked run
      (other.earlierSteps.keyed keyed) order toTarget recorded later other.notLater found

end Compilation

namespace Registry

open Compilation

/-- What a compilation that succeeds returns is what its run has made in the end. -/
theorem compile_eq_ok {registry final : Registry} {config : Config}
    {result : CompiledSchema} (compiled : registry.compile config = (.ok result, final)) :
    ∃ after, (compileEntities config (prepared config registry).2.registry.names).runOn
        (prepared config registry).2 = (.ok (), after) ∧
      result.models = after.store ∧ final = after.registry := by
  obtain ⟨-, after, ran, rfl, sameRegistry⟩ := compile_eq_ok_iff.mp compiled
  exact ⟨after, ran, rfl, sameRegistry⟩

/-- In a compilation that succeeds, every relationship without an association table has its foreign
key on the model of the entity that holds it, unless the key was overlooked when the relationship
was linked. -/
theorem compile_foreignKeys {registry final : Registry} {config : Config}
    {result : CompiledSchema} {model holder : Model} {property : String}
    {relationship : Relationship} (keyed : registry.WellKeyed)
    (compiled : registry.compile config = (.ok result, final)) (member : model ∈ result.models)
    (related : (property, relationship) ∈ model.relationships)
    (direct : relationship.cardinality.needsAssociationTable = false)
    (held : result.model? (relationship.holder model.name) = some holder) :
    ∃ tablename, final.HasTable (relationship.owning model.name) tablename ∧
      (holder.HasKey (ForeignKey.propertyName tablename relationship.foreignKeyColumn)
          (ForeignKey.target tablename relationship.foreignKeyColumn) ↔
        ¬ KeyOverlooked config registry model.name property (relationship.holder model.name)
          (ForeignKey.propertyName tablename relationship.foreignKeyColumn)
          (ForeignKey.target tablename relationship.foreignKeyColumn)) := by
  obtain ⟨after, succeeded, models, rfl⟩ := compile_eq_ok compiled
  have keyedStart := keyed.prepared config
  have nodup : (prepared config registry).2.registry.names.Nodup := keyedStart.entries
  have steps := (compileEntities_moves config _ (List.Subset.refl _)).steps succeeded
  have built : ∀ {name : String} {model : Model},
      ModelStore.get? after.store name = some model →
      name ∈ (prepared config registry).2.registry.names := by
    intro name model found
    by_contra other
    have absent := steps.not_built other (by rw [prepared_store]; rfl)
    cases absent.symm.trans found
  have nodupStore : (after.store.map Model.name).Nodup :=
    steps.nodup_store (by rw [prepared_store]; exact List.nodup_nil)
  have foundModel := ModelStore.get?_of_mem nodupStore (models ▸ member)
  have foundHolder : ModelStore.get? after.store (relationship.holder model.name) =
      some holder := by
    rw [CompiledSchema.model?, models] at held
    exact held
  obtain ⟨visit⟩ := visit_of_mem succeeded nodup (built foundModel)
  obtain ⟨first, made, ⟨run⟩, recorded⟩ := visit.run_of_get? foundModel
  obtain ⟨last, isLast, added⟩ := visit.laterSteps.built visit.notLater recorded
  obtain rfl := Option.some.inj (isLast.symm.trans foundModel)
  rw [added.relationships] at related
  have keyedHere := visit.earlierSteps.keyed keyedStart
  obtain ⟨state, next, rfl, toState, linked, toDone⟩ := run.linked_at keyedHere related
  obtain ⟨nullable, ensured⟩ := link_eq_ok direct linked
  exact visit.hasKey_iff succeeded keyedStart toState ensured
    ((link_moves _ relationship).steps linked) toDone foundHolder

/-- The schema of a primary key. -/
def identifier : Json := .obj [("type", .str "integer"), ("x-primary-key", .bool true)]

def identifierColumn : Column where
  type := .integer
  columnType := .integer
  format := none
  maxLength := none
  nullable := true
  primaryKey := true
  autoincrement := false
  index := false
  unique := false
  foreignKey := none
  default := none
  description := none
  arguments := none
  dictIgnore := false
  readOnly := false
  writeOnly := false

/-- The schema of the key column that points at authors. -/
def authorKey : Keyed Json :=
  [("type", .str "integer"), ("x-foreign-key", .str "author.id"), ("x-dict-ignore", .bool true)]

/-- The schema of a text that has not got its key column. -/
def unkeyedText : Json :=
  .obj [("type", .str "object"), ("x-tablename", .str "text"),
    ("properties", .obj [("id", identifier)])]

/-- A list of what an author has written. -/
def listing (name : String) : Json :=
  .obj [("type", .str "array"), ("items", .obj [("$ref", .str ("#/" ++ name))])]

def authorFields : Keyed Json :=
  [("type", .str "object"), ("x-tablename", .str "author"),
    ("properties", .obj [("id", identifier), ("texts", listing "Text"),
      ("novels", listing "Novel")])]

/-- Novels, which are composed of texts, and authors of both. -/
def library : Registry where
  entries := [
    ("Novel", .obj [("allOf", .arr [.obj [("$ref", .str "#/Text")],
      .obj [("x-tablename", .str "novel")]])]),
    ("Author", .obj authorFields), ("Text", unkeyedText)]
  place := none
  documents := Documents.empty

/-- The models of a library: the key column is on texts only. -/
def libraryModels : CompiledSchema :=
  let id : ModelProperty := ⟨"id", .column identifierColumn, identifier⟩
  let key : ModelProperty := ⟨"author_id", .column { identifierColumn with
    primaryKey := false, foreignKey := some "author.id", dictIgnore := true }, .obj authorKey⟩
  let list (name model : String) : ModelProperty :=
    ⟨name, .relationship (.toEntity .array model), .obj (Relationship.listSchema model)⟩
  { models := [{ Model.named "Novel" "novel" with properties := [id] },
      { Model.named "Author" "author" with
        properties := [id, list "texts" "Text", list "novels" "Novel"] },
      { Model.named "Text" "text" with properties := [id, key] }]
    associationTables := [] }

/-- A key that is overlooked: novels are compiled first, and when the novels of an author are
linked, the key that texts have got since then counts as theirs. -/
theorem compile_foreignKeys_library :
    let compiled := library.insert "Text"
      (wrap unkeyedText (propertyFragment "author_id" (.obj authorKey)))
    library.compile Config.usual = (.ok libraryModels, compiled) ∧
      compiled.HasTable "Author" "author" ∧
      KeyOverlooked Config.usual library "Author" "novels" "Novel" "author_id" "author.id" ∧
      ∃ novel, libraryModels.model? "Novel" = some novel ∧
        ¬ novel.HasKey "author_id" "author.id" := by
  intro final
  have keyed : library.WellKeyed := wellKeyed_of_entries (by decide) (by decide +kernel)
  have compiled : library.compile Config.usual = (.ok libraryModels, final) := by cbv
  have flattened : final.flatten "Author" (.obj authorFields) =
      .ok ⟨"Author", authorFields⟩ := by cbv
  have hasTable : final.HasTable "Author" "author" := ⟨_, _, rfl, flattened, rfl⟩
  have lacks : ∀ novel, libraryModels.model? "Novel" = some novel →
      ¬ novel.HasKey "author_id" "author.id" := by
    rintro novel found ⟨column, inModel, -⟩
    obtain rfl := Option.some.inj found
    cases inModel
  obtain ⟨tablename, named, hasKey⟩ :=
    compile_foreignKeys keyed compiled (.tail _ (.head _)) (.tail _ (.head _)) rfl rfl
  obtain rfl := named.unique hasTable
  refine ⟨compiled, hasTable, ?_, _, rfl, lacks _ rfl⟩
  by_contra seen
  exact lacks _ rfl (hasKey.mpr seen)

end Registry

end EntityMapping
