import EntityMapping.Proofs.ModelNames
import EntityMapping.Proofs.SameValues
import EntityMapping.Proofs.Traces

/-!
The association tables that a compilation collects. Both sides of a many to many relationship may
declare its table, in either orientation; the table that is declared first is kept as it is, and
every later declaration is found to be equivalent to it. Every table is that of a relationship, and
every relationship that needs a table has exactly one.
-/

set_option autoImplicit false
set_option relaxedAutoImplicit false

namespace EntityMapping

open Keyed (Distinct)

/-- Among tables of different names there is one of a name. -/
theorem AssociationTable.filter_name {tables : List AssociationTable} {table : AssociationTable}
    (distinct : (tables.map AssociationTable.name).Nodup) (member : table ∈ tables) :
    tables.filter (·.name = table.name) = [table] := by
  induction tables with
  | nil => cases member
  | cons first rest ih =>
    obtain ⟨notLater, distinct⟩ := List.nodup_cons.mp distinct
    rcases List.mem_cons.mp member with rfl | later
    · have none : rest.filter (·.name = table.name) = [] := by
        simpa [List.filter_eq_nil_iff] using notLater
      rw [List.filter_cons_of_pos (by simp), none]
    · have different : first.name ≠ table.name := fun same =>
        notLater (same ▸ List.mem_map.mpr ⟨table, later, rfl⟩)
      rw [List.filter_cons_of_neg (by simpa using different), ih distinct later]

/-- A table is the one that joins the entities of a relationship of an entity. -/
def Registry.IsTableOf (registry : Registry) (name : String) (relationship : Relationship)
    (table : AssociationTable) : Prop :=
  relationship.cardinality = .manyToMany table.name ∧
    registry.association table.name name relationship.modelName = .ok table

namespace Compilation

variable {config : Config} {registry : Registry} {names : List String} {name property : String}
  {before after : Compilation} {schema : Json} {table : AssociationTable}
  {relationship : Relationship}

/-- A table once collected stays where it is. -/
theorem Steps.tables (steps : Steps names before after) : before.tables <+: after.tables := by
  induction steps with
  | refl => exact List.prefix_rfl
  | tail _ step ih =>
    refine ih.trans ?_
    cases step with
    | table => exact List.prefix_append _ _
    | key => exact List.prefix_rfl
    | model => exact List.prefix_rfl

theorem Steps.nodup_tables (steps : Steps names before after)
    (nodup : (before.tables.map AssociationTable.name).Nodup) :
    (after.tables.map AssociationTable.name).Nodup := by
  induction steps with
  | refl => exact nodup
  | tail _ step ih =>
    cases step with
    | table fresh =>
      rw [List.map_append]
      exact ih.append (List.nodup_singleton _) (by simpa using fresh)
    | key => exact ih
    | model => exact ih

/-- When a relationship with a table has been linked, a table equivalent to its own is there. -/
theorem exists_table_of_link {secondary : String}
    (needs : relationship.cardinality = .manyToMany secondary)
    (linked : (link name relationship).runOn before = (.ok (), after)) :
    ∃ built, before.registry.association secondary name relationship.modelName = .ok built ∧
      ∃ table ∈ after.tables, table.name = secondary ∧ table.isEquivalent built = true := by
  obtain ⟨built, joined, added⟩ := (link_joined needs).mp linked
  refine ⟨built, joined, ?_⟩
  have named : built.name = secondary := by
    obtain ⟨_, _, -, -, -, rfl⟩ := Registry.association_eq_ok.mp joined
    rfl
  have isThere := addTable_eq_ok.mp added
  split at isThere
  · subst isThere
    refine ⟨built, List.mem_append_right _ (List.mem_singleton_self _), named, ?_⟩
    have bare := Registry.isBare_of_association joined
    exact (bare.isEquivalent_iff bare).mpr (.refl built)
  · rename_i existing found
    obtain ⟨equivalent, rfl⟩ := isThere
    have sameName : existing.name = built.name := by simpa using List.find?_some found
    exact ⟨existing, List.mem_of_find?_eq_some found, sameName.trans named, equivalent⟩

/-- A table that is there after a property has been linked was there before, or is its own. -/
theorem table_of_linkProperty {found : Option Relationship}
    (linked : (linkProperty name property schema).runOn before = (.ok found, after))
    (member : table ∈ after.tables) : table ∈ before.tables ∨
      ∃ relationship, found = some relationship ∧
        before.registry.IsTableOf name relationship table := by
  obtain ⟨-, linked⟩ := linkProperty_eq_ok.mp linked
  cases found with
  | none => exact .inl (linked ▸ member)
  | some relationship =>
    dsimp only at linked
    by_cases direct : relationship.cardinality.needsAssociationTable = false
    · rw [link_direct direct] at linked
      exact .inl ((addForeignKey_eq_ok.mp linked).2 ▸ member)
    · obtain ⟨secondary, needs⟩ := Cardinality.joined_of_not_direct direct
      obtain ⟨built, joined, added⟩ := (link_joined needs).mp linked
      rcases (mem_tables_of_addTable added).2 table member with earlier | rfl
      · exact .inl earlier
      · obtain ⟨_, _, -, -, -, rfl⟩ := Registry.association_eq_ok.mp joined
        exact .inr ⟨relationship, rfl, needs, joined⟩

/-- A table that is collected while the properties of an entity are linked is that of one of the
relationships that are gathered, when the properties before are linked. -/
theorem table_of_linkProperties {properties : Keyed Json} {gathered : Keyed Relationship}
    (linked : (linkProperties name properties).runOn before = (.ok gathered, after))
    (member : table ∈ after.tables) (new : table ∉ before.tables) :
    ∃ first property schema later earlier state relationship,
      properties = first ++ (property, schema) :: later ∧
      (linkProperties name first).runOn before = (.ok earlier, state) ∧
      (property, relationship) ∈ gathered ∧ state.registry.IsTableOf name relationship table := by
  induction properties using List.reverseRecOn generalizing after gathered with
  | nil =>
    obtain ⟨-, rfl⟩ := Prod.mk.inj linked
    exact absurd member new
  | append_singleton init field ih =>
    obtain ⟨property, schema⟩ := field
    obtain ⟨state, found, next, earlier, others, before', here, later, rfl⟩ :=
      linkProperties_cut linked
    obtain ⟨-, rfl⟩ := Prod.mk.inj later
    rcases table_of_linkProperty here member with inState | ⟨relationship, rfl, isTable⟩
    · obtain ⟨first, property', schema', later, earlier', state', relationship, rfl, reached,
        inEarlier, isTable⟩ := ih before' inState
      exact ⟨first, property', schema', later ++ [(property, schema)], earlier', state',
        relationship, by simp, reached, List.mem_append_left _ inEarlier, isTable⟩
    · exact ⟨init, property, schema, [], earlier, state, relationship, rfl, before',
        List.mem_append_right _ (List.mem_append_left _ (by simp)), isTable⟩

/-- A table that is collected while some entities are compiled is collected by one of them. -/
theorem entity_of_table {list : List String}
    (ran : (compileEntities config list).runOn before = (.ok (), after))
    (member : table ∈ after.tables) (new : table ∉ before.tables) :
    ∃ first name later start made done, list = first ++ name :: later ∧
      (compileEntities config first).runOn before = (.ok (), start) ∧
      (compileEntity config name).runOn start = (.ok made, done) ∧
      table ∈ done.tables ∧ table ∉ start.tables := by
  induction list using List.reverseRecOn generalizing after with
  | nil =>
    obtain ⟨-, rfl⟩ := Prod.mk.inj ran
    exact absurd member new
  | append_singleton init name ih =>
    obtain ⟨start, made, done, reached, compiled, later⟩ := compileEntities_cut ran
    obtain ⟨-, rfl⟩ := Prod.mk.inj later
    have inDone : table ∈ done.tables := by cases made <;> exact member
    by_cases before' : table ∈ start.tables
    · obtain ⟨first, other, later, start', made', done', rfl, reached', compiled', inDone',
        notBefore⟩ := ih reached before'
      exact ⟨first, other, later ++ [name], start', made', done', by simp, reached', compiled',
        inDone', notBefore⟩
    · exact ⟨init, name, [], start, made, done, rfl, reached, compiled, inDone, before'⟩

/-- An entity that gets no model changes nothing. -/
theorem unchanged_of_none
    (compiled : (compileEntity config name).runOn before = (.ok none, after)) : before = after := by
  rcases compileEntity_eq_ok.mp compiled with ⟨-, -, same⟩ |
    ⟨_, _, tablename, -, -, -, compiled⟩
  · exact same
  · cases tablename with
    | none => exact compiled.2
    | some tablename =>
      obtain ⟨_, _, _, _, -, -, -, -, isMade⟩ := linkedModel_eq_ok.mp compiled.2
      cases isMade

/-- What the model of an entity is made of is the entity's own schema as it is in the end. -/
theorem EntityRun.ownAfter {model : Model} (run : EntityRun name before after model)
    (keyed : before.registry.WellKeyed) : ∃ schema, after.registry.get? name = some schema ∧
      after.registry.ownSchema name schema = .ok ⟨run.own.parent, run.flat.fields⟩ := by
  have steps : Steps [] before after := (linkProperties_moves name run.properties).steps run.linked
  have kept := steps.keepsTables keyed
  obtain ⟨schema, registered⟩ : ∃ schema, after.registry.get? name = some schema := by
    rw [← Registry.mem_names_iff, kept.names, Registry.mem_names_iff]
    exact ⟨run.schema, run.registered⟩
  have parent : after.registry.parent? name schema = .ok run.own.parent := by
    have same := kept.parent name
    rwa [Registry.registered_eq_ok.mpr registered, Registry.registered_eq_ok.mpr run.registered,
      ok_bind, ok_bind, (Registry.ownSchema_eq_ok.mp run.ownFound).1] at same
  have flattened := run.flattened
  rw [registered, Option.getD_some] at flattened
  exact ⟨schema, registered, Registry.ownSchema_eq_ok.mpr ⟨parent, run.flat, flattened, rfl⟩⟩

/-- A property that is gathered is still declared when the entity is linked. -/
theorem EntityRun.declared_of_gathered {model : Model} (run : EntityRun name before after model)
    (keyed : before.registry.WellKeyed) (isGathered : (property, relationship) ∈ run.gathered) :
    property ∈ Keyed.keys (propertiesIn run.flat.fields) := by
  have steps : Steps [] before after := (linkProperties_moves name run.properties).steps run.linked
  obtain ⟨schema, registered, own⟩ := run.ownAfter keyed
  rw [← Registry.declared_eq registered own]
  refine steps.declared keyed name ?_
  obtain ⟨schema, _, member, -⟩ := gathered_of_linkProperties run.linked _ isGathered
  exact run.properties_eq ▸ List.mem_map.mpr ⟨_, member, rfl⟩

/-- A relationship that is gathered becomes one of the model: no property gets lost while the entity
is linked. -/
theorem EntityRun.relationships_of_gathered {model : Model}
    (run : EntityRun name before after model) (keyed : before.registry.WellKeyed)
    (isGathered : (property, relationship) ∈ run.gathered) :
    (property, relationship) ∈ model.relationships := by
  obtain ⟨declared, found, properties⟩ := (modelOf_of_model run.built).properties
  have stillDeclared : property ∈ Keyed.keys declared := by
    rw [propertiesOf_eq_ok found]
    exact run.declared_of_gathered keyed isGathered
  have distinct : Distinct run.gathered := by
    refine (sublist_of_linkProperties run.linked).nodup ?_
    rw [run.properties_eq]
    exact keyed.distinct_declared name
  obtain ⟨schema, isDeclared⟩ := Keyed.get?_of_mem_keys stillDeclared
  obtain ⟨first, isFirst, only⟩ := find?_of_modelProperties properties isDeclared
  rw [compiledProperty?, Keyed.get?_of_mem distinct isGathered] at isFirst
  have member := List.mem_of_find?_eq_some (only _ (Except.ok.inj isFirst).symm)
  exact List.mem_filterMap.mpr ⟨_, member, rfl⟩

/-- What a run has made when it has linked the properties before one of them. -/
theorem linking_eq {first later : Keyed Json} {earlier : Keyed Relationship} {state : Compilation}
    (keyed : (reaching config registry name).registry.WellKeyed)
    (split : (reaching config registry name).registry.declared name =
      first ++ (property, schema) :: later)
    (linked : (linkProperties name first).runOn (reaching config registry name) =
      (.ok earlier, state)) : linking config registry name property = state := by
  have distinct := keyed.distinct_declared name
  rw [split] at distinct
  rw [linking, split, Keyed.takeWhile_ne_of_cut (Keyed.notMem_keys_of_cut distinct).1, linked]

section Runs

variable (keyed : registry.WellKeyed)
  (succeeded : (compileEntities config (prepared config registry).2.registry.names).runOn
    (prepared config registry).2 = (.ok (), after))

include keyed succeeded

/-- Every many to many relationship of a model has a table. -/
theorem table_of_relationship {model : Model}
    (built : ModelStore.get? after.store name = some model)
    (related : (property, relationship) ∈ model.relationships) {secondary : String}
    (needs : relationship.cardinality = .manyToMany secondary) :
    ∃ table ∈ after.tables, table.name = secondary ∧ ∃ own,
      (linking config registry name property).registry.association secondary name
        relationship.modelName = .ok own ∧ table.isEquivalent own = true := by
  obtain ⟨visit⟩ := exists_visit_of_built keyed succeeded built
  obtain ⟨first, -, ⟨run⟩, recorded⟩ := visit.run_of_get? built
  obtain ⟨later, found, added⟩ := visit.laterSteps.built visit.notLater recorded
  obtain rfl := Option.some.inj (built.symm.trans found)
  rw [added.relationships] at related
  have keyedThen := visit.earlierSteps.keyed (keyed.prepared config)
  obtain ⟨_, next, rfl, -, linked, toDone⟩ := run.linked_at keyedThen related
  obtain ⟨own, joined, table, inNext, named, equivalent⟩ := exists_table_of_link needs linked
  have inDone : table ∈ (visit.done.record visit.made).tables := by
    have here := toDone.tables.subset inNext
    cases visit.made <;> exact here
  exact ⟨table, visit.laterSteps.tables.subset inDone, named, own, joined, equivalent⟩

/-- Every table that is collected is that of a relationship of a model. -/
theorem relationship_of_table (member : table ∈ after.tables) :
    ∃ model ∈ after.store, ∃ property relationship, (property, relationship) ∈ model.relationships ∧
      (linking config registry model.name property).registry.IsTableOf model.name relationship
        table := by
  have new : table ∉ (prepared config registry).2.tables := by
    rw [prepared_eq_start]
    exact List.not_mem_nil
  obtain ⟨first, name, later, start, made, done, names, reached, compiled, inDone, notBefore⟩ :=
    entity_of_table succeeded member new
  have apart : (prepared config registry).2.registry.names.Nodup := nodup_names keyed
  rw [names] at apart
  obtain ⟨notEarlier, notLater⟩ := notMem_of_nodup_cut apart
  obtain ⟨visit, rfl, rfl⟩ := visit_of_names succeeded names notEarlier notLater
  obtain ⟨-, rfl⟩ := Prod.mk.inj (visit.reached.symm.trans reached)
  have keyedThen := visit.earlierSteps.keyed (keyed.prepared config)
  -- Only an entity with a table collects tables.
  obtain ⟨built, rfl⟩ : ∃ built, made = some built := by
    cases made with
    | none => exact absurd (unchanged_of_none compiled ▸ inDone) notBefore
    | some built => exact ⟨built, rfl⟩
  obtain ⟨sameMade, rfl⟩ := Prod.mk.inj (visit.compiled.symm.trans compiled)
  have isMade := Except.ok.inj sameMade
  obtain ⟨run⟩ := entityRun_of_compileEntity compiled
  obtain ⟨first, property, schema, later, earlier, state, relationship, split, linked, isGathered,
    isTable⟩ := table_of_linkProperties run.linked inDone notBefore
  have recorded : ModelStore.get? (visit.done.record visit.made).store name = some built := by
    rw [isMade, record, ModelStore.get?_add, if_pos (model_eq_ok run.built).1.symm]
  obtain ⟨model, found, added⟩ := visit.laterSteps.built visit.notLater recorded
  have named : model.name = name := by simpa using List.find?_some found
  refine ⟨model, List.mem_of_find?_eq_some found, property, relationship, ?_, ?_⟩
  · rw [added.relationships]
    exact run.relationships_of_gathered keyedThen isGathered
  · rw [named, linking_eq keyedThen (run.properties_eq ▸ split) linked]
    exact isTable

end Runs

end Compilation

namespace Registry

open Compilation

variable {registry : Registry} {config : Config}

/-- No moment of a compilation loses or changes a table that an earlier one has, and none has two
tables of a name. -/
theorem tables_of_moments (registry : Registry) (config : Config) :
    (∀ moment ∈ registry.moments config, (moment.tables.map AssociationTable.name).Nodup) ∧
    (registry.moments config).Pairwise fun earlier later => earlier.tables <+: later.tables := by
  have empty : (prepared config registry).2.tables = [] := by
    rw [prepared_eq_start]
    rfl
  rw [moments]
  generalize prepared config registry = begun at empty
  obtain ⟨outcome, state⟩ := begun
  dsimp only at empty
  cases outcome with
  | error e => simp [start, empty]
  | ok _ =>
    have passes := passes_compilingMoments config (List.Subset.refl state.registry.names) state
    refine ⟨fun moment member => ?_, List.pairwise_cons.mpr ⟨?_, ?_⟩⟩
    · rcases List.mem_cons.mp member with rfl | later
      · exact List.nodup_nil
      · exact (passes.steps later).nodup_tables (by simp [empty])
    · exact fun moment _ => List.nil_prefix
    · exact passes.pairwise.imp fun steps => steps.tables

/-- Association tables are consistent. At every moment of a compilation those collected so far have
different names, and none is changed any more. If it succeeds, there is exactly one table of every
many to many relationship of a model, equivalent to the one that joined its entities when it was
linked, and no other table. The two orientations of a table are equivalent, and either can be built
if the other one can. -/
theorem compile_associationTables (keyed : registry.WellKeyed) (config : Config) :
    ((∀ moment ∈ registry.moments config, (moment.tables.map AssociationTable.name).Nodup) ∧
      (registry.moments config).Pairwise fun earlier later => earlier.tables <+: later.tables) ∧
    (∀ compiled, (registry.compile config).1 = .ok compiled →
      (∃ last, (registry.moments config).getLast? = some last ∧
        compiled = ⟨last.store, last.tables⟩) ∧
      (∀ model ∈ compiled.models, ∀ property relationship secondary,
        (property, relationship) ∈ model.relationships →
        relationship.cardinality = .manyToMany secondary →
        linking config registry model.name property ∈ registry.moments config ∧
        ∃ table own, compiled.associationTables.filter (·.name = secondary) = [table] ∧
          (linking config registry model.name property).registry.association secondary model.name
            relationship.modelName = .ok own ∧ table.isEquivalent own = true) ∧
      ∀ table ∈ compiled.associationTables, ∃ model ∈ compiled.models, ∃ property relationship,
        (property, relationship) ∈ model.relationships ∧
        (linking config registry model.name property).registry.IsTableOf model.name relationship
          table) ∧
    (Equivalence fun one other : { table : AssociationTable // table.IsWellKeyed } =>
      one.1.isEquivalent other.1 = true) ∧
    ∀ (now : Registry) secondary left right,
      ((∃ table, now.association secondary left right = .ok table) ↔
        ∃ table, now.association secondary right left = .ok table) ∧
      ∀ table other, now.association secondary left right = .ok table →
        now.association secondary right left = .ok other →
        table.IsWellKeyed ∧ table.isEquivalent other = true := by
  refine ⟨tables_of_moments registry config, fun compiled succeeded => ?_,
    AssociationTable.equivalence_isEquivalent, fun now secondary left right => ⟨⟨?_, ?_⟩, ?_⟩⟩
  · have run : registry.compile config = (.ok compiled, (registry.compile config).2) :=
      Prod.ext succeeded rfl
    obtain ⟨isPrepared, after, ran, rfl, -⟩ := compile_eq_ok_iff.mp run
    obtain ⟨last, isLast, -, returned⟩ := registry.getLast?_moments config
    have distinct := (tables_of_moments registry config).1 last (List.mem_of_getLast? isLast)
    have same := returned _ succeeded
    obtain ⟨sameStore, sameTables⟩ := CompiledSchema.mk.inj same
    refine ⟨⟨last, isLast, same⟩, ?_, fun table member => relationship_of_table keyed ran member⟩
    intro model member property relationship secondary related needs
    have nodup : (after.store.map Model.name).Nodup := by
      refine ((compileEntities_moves config _ (List.Subset.refl _)).steps ran).nodup_store ?_
      rw [prepared_store]
      exact List.nodup_nil
    have built := ModelStore.get?_of_mem nodup member
    obtain ⟨visit⟩ := exists_visit_of_built keyed ran built
    obtain ⟨_, made, -, -⟩ := visit.run_of_get? built
    obtain ⟨table, isThere, rfl, own, joined, equivalent⟩ :=
      table_of_relationship keyed ran built related needs
    rw [← sameTables] at distinct
    exact ⟨visit.linking_mem made isPrepared property, table, own,
      AssociationTable.filter_name distinct isThere, joined, equivalent⟩
  · rintro ⟨table, found⟩
    obtain ⟨other, foundToo, -⟩ := association_swap found
    exact ⟨other, foundToo⟩
  · rintro ⟨table, found⟩
    obtain ⟨other, foundToo, -⟩ := association_swap found
    exact ⟨other, foundToo⟩
  · intro table other found foundToo
    obtain ⟨swapped, foundSwapped, twins⟩ := association_swap found
    obtain rfl := Except.ok.inj (foundToo.symm.trans foundSwapped)
    have bare := isBare_of_association found
    exact ⟨⟨bare.1.isWellKeyed, bare.2.isWellKeyed⟩,
      (bare.isEquivalent_iff (isBare_of_association foundToo)).mpr twins.symm⟩

/-- Students and courses; both sides declare the table between them. -/
def college : Registry where
  entries := [
    ("Student", .obj [("type", .str "object"), ("x-tablename", .str "student"),
      ("properties", .obj [
        ("id", .obj [("type", .str "integer"), ("x-primary-key", .bool true)]),
        ("courses", .obj [("type", .str "array"), ("items", .obj [("allOf", .arr [
          .obj [("$ref", .str "#/Course")], .obj [("x-secondary", .str "enrolment")]])])])])]),
    ("Course", .obj [("type", .str "object"), ("x-tablename", .str "course"),
      ("properties", .obj [
        ("id", .obj [("type", .str "integer"), ("x-primary-key", .bool true)]),
        ("students", .obj [("type", .str "array"), ("items", .obj [("allOf", .arr [
          .obj [("$ref", .str "#/Student")], .obj [("x-secondary", .str "enrolment")]])])])])])]
  place := none
  documents := Documents.empty

/-- The names of a table's columns. -/
def columnNames (table : AssociationTable) : List String :=
  table.columns.map AssociationColumn.name

/-- What models are related through which tables, and the tables. -/
def tableFacts (compiled : CompiledSchema) :
    List (String × String × String × Cardinality) × Keyed (List String) :=
  (compiled.models.flatMap fun model => model.relationships.map fun related =>
      (model.name, related.1, related.2.modelName, related.2.cardinality),
    compiled.associationTables.map fun table => (table.name, columnNames table))

/-- The table of students and courses is kept as students declare it, first their own column; the
one that courses declare later has it last, and is found to be equivalent. -/
theorem compile_associationTables_college : college.WellKeyed ∧
    ∃ compiled, (college.compile Config.usual).1 = .ok compiled ∧
      tableFacts compiled =
        ([("Student", "courses", "Course", .manyToMany "enrolment"),
          ("Course", "students", "Student", .manyToMany "enrolment")],
        [("enrolment", ["student_id", "course_id"])]) ∧
      ∃ table own, compiled.associationTables.filter (·.name = "enrolment") = [table] ∧
        table.isEquivalent own = true ∧ columnNames own = ["course_id", "student_id"] := by
  have keyed : college.WellKeyed := wellKeyed_of_entries (by decide) (by decide +kernel)
  have facts : (college.compile Config.usual).1.map tableFacts = .ok
      ([("Student", "courses", "Course", .manyToMany "enrolment"),
        ("Course", "students", "Student", .manyToMany "enrolment")],
      [("enrolment", ["student_id", "course_id"])]) := by cbv
  have declaredToo : ((linking Config.usual college "Course" "students").registry.association
      "enrolment" "Course" "Student").map columnNames = .ok ["course_id", "student_id"] := by cbv
  obtain ⟨compiled, succeeded, same⟩ := map_eq_ok.mp facts
  obtain ⟨-, consistent, -⟩ := compile_associationTables keyed Config.usual
  obtain ⟨-, tables, -⟩ := consistent compiled succeeded
  have member : ("Course", "students", "Student", Cardinality.manyToMany "enrolment") ∈
      (tableFacts compiled).1 := by
    rw [same]
    exact List.mem_cons_of_mem _ List.mem_cons_self
  obtain ⟨model, inModels, related⟩ := List.mem_flatMap.mp member
  obtain ⟨⟨property, relationship⟩, related, facts⟩ := List.mem_map.mp related
  simp only [Prod.mk.injEq] at facts
  obtain ⟨name, rfl, modelName, needs⟩ := facts
  obtain ⟨-, table, own, only, joined, equivalent⟩ :=
    tables model inModels "students" relationship "enrolment" related needs
  rw [name, modelName] at joined
  rw [joined] at declaredToo
  exact ⟨keyed, compiled, succeeded, same, table, own, only, equivalent,
    Except.ok.inj declaredToo⟩

end Registry

end EntityMapping
