import EntityMapping.Proofs.BuiltModels
import EntityMapping.Proofs.CompiledProperties

/-!
Moments of a run: when it comes to an entity, and when it comes to a property of an entity. A run
that succeeds comes once to every entity and, for each relationship of a model, once to the property
that it was gathered from.
-/

set_option autoImplicit false
set_option relaxedAutoImplicit false

namespace EntityMapping

open Keyed (Distinct)
open Model (ColumnsAdded)

namespace Cardinality

variable {cardinality : Cardinality}

theorem joined_of_not_direct (direct : ¬ cardinality.needsAssociationTable = false) :
    ∃ secondary, cardinality = .manyToMany secondary := by
  cases cardinality with
  | manyToMany secondary => exact ⟨secondary, rfl⟩
  | _ => exact absurd rfl direct

theorem not_joined_of_direct (direct : cardinality.needsAssociationTable = false)
    (secondary : String) : cardinality ≠ .manyToMany secondary := by
  rintro rfl
  cases direct

end Cardinality

namespace Relationship

/-- The entity that holds the foreign key of a relationship of an entity. -/
def holder (relationship : Relationship) (name : String) : String :=
  if relationship.cardinality.keyIsLocal then name else relationship.modelName

/-- The entity that the foreign key of a relationship of an entity points at. -/
def owning (relationship : Relationship) (name : String) : String :=
  if relationship.cardinality.keyIsLocal then relationship.modelName else name

/-- Whether the key column of a relationship may be null, where that is said. -/
def keyNullable (relationship : Relationship) : Option Bool :=
  if relationship.cardinality.keyIsLocal then relationship.nullable else none

end Relationship

namespace Compilation

/-- What a run has made when it comes to an entity. -/
def reaching (config : Config) (registry : Registry) (name : String) : Compilation :=
  let start := (prepared config registry).2
  ((compileEntities config (start.registry.names.takeWhile (· ≠ name))).runOn start).2

/-- What a run has made when it comes to a property of an entity. -/
def linking (config : Config) (registry : Registry) (name property : String) : Compilation :=
  let start := reaching config registry name
  let earlier := (start.registry.declared name).takeWhile (·.1 ≠ property)
  ((linkProperties name earlier).runOn start).2

/-- The model that a run makes of an entity, if it makes one. -/
def made? (config : Config) (registry : Registry) (name : String) : Option Model :=
  match (compileEntity config name).runOn (reaching config registry name) with
  | (.ok model, _) => model
  | (.error _, _) => none

/-- How a run that succeeds comes to an entity, compiles it, and goes on. -/
structure Visit (config : Config) (registry : Registry) (name : String) (after : Compilation) where
  earlier : List String
  later : List String
  names : (prepared config registry).2.registry.names = earlier ++ name :: later
  notEarlier : name ∉ earlier
  notLater : name ∉ later
  made : Option Model
  done : Compilation
  reached : (compileEntities config earlier).runOn (prepared config registry).2 =
    (.ok (), reaching config registry name)
  compiled : (compileEntity config name).runOn (reaching config registry name) = (.ok made, done)
  goesOn : (compileEntities config later).runOn (done.record made) = (.ok (), after)

variable {config : Config} {registry : Registry} {name property : String} {after : Compilation}

theorem visit_of_names {earlier later : List String}
    (succeeded : (compileEntities config (prepared config registry).2.registry.names).runOn
      (prepared config registry).2 = (.ok (), after))
    (names : (prepared config registry).2.registry.names = earlier ++ name :: later)
    (notEarlier : name ∉ earlier) (notLater : name ∉ later) :
    ∃ visit : Visit config registry name after, visit.earlier = earlier ∧ visit.later = later := by
  have cut := succeeded
  rw [names] at cut
  obtain ⟨start, made, done, reached, compiled, goesOn⟩ := compileEntities_cut cut
  have before : (prepared config registry).2.registry.names.takeWhile (· ≠ name) = earlier := by
    rw [names]
    refine takeWhile_append_cons (fun other member => ?_) (by simp)
    simpa using fun same : other = name => notEarlier (same ▸ member)
  have sameStart : reaching config registry name = start := by
    rw [reaching, before, reached]
  subst sameStart
  exact ⟨⟨earlier, later, names, notEarlier, notLater, made, done, reached, compiled, goesOn⟩, rfl,
    rfl⟩

/-- A run that succeeds comes to every entity. -/
theorem visit_of_mem
    (succeeded : (compileEntities config (prepared config registry).2.registry.names).runOn
      (prepared config registry).2 = (.ok (), after))
    (nodup : (prepared config registry).2.registry.names.Nodup)
    (member : name ∈ (prepared config registry).2.registry.names) :
    Nonempty (Visit config registry name after) := by
  obtain ⟨earlier, later, names⟩ := List.append_of_mem member
  rw [names] at nodup
  obtain ⟨notEarlier, notLater⟩ := notMem_of_nodup_cut nodup
  obtain ⟨visit, -, -⟩ := visit_of_names succeeded names notEarlier notLater
  exact ⟨visit⟩

namespace Visit

theorem earlierSteps (visit : Visit config registry name after) :
    Steps visit.earlier (prepared config registry).2 (reaching config registry name) :=
  (compileEntities_moves config visit.earlier (List.Subset.refl _)).steps visit.reached

theorem laterSteps (visit : Visit config registry name after) :
    Steps visit.later (visit.done.record visit.made) after :=
  (compileEntities_moves config visit.later (List.Subset.refl _)).steps visit.goesOn

theorem made_eq (visit : Visit config registry name after) :
    made? config registry name = visit.made := by
  rw [made?, visit.compiled]

theorem doneSteps (visit : Visit config registry name after) :
    Steps [] (reaching config registry name) visit.done :=
  (compileEntity_moves config name).steps visit.compiled

/-- The model that an entity has in the end is the one that the visit made, added to. -/
theorem run_of_get? (visit : Visit config registry name after) {model : Model}
    (found : ModelStore.get? after.store name = some model) :
    ∃ built, visit.made = some built ∧
      Nonempty (EntityRun name (reaching config registry name) visit.done built) ∧
      ModelStore.get? (visit.done.record visit.made).store name = some built := by
  have notBefore : ModelStore.get? visit.done.store name = none := by
    refine visit.doneSteps.not_built List.not_mem_nil ?_
    refine visit.earlierSteps.not_built visit.notEarlier ?_
    rw [prepared_store]
    rfl
  cases made : visit.made with
  | none =>
    have steps := visit.laterSteps
    rw [made] at steps
    cases (steps.not_built visit.notLater notBefore).symm.trans found
  | some built =>
    have compiled := visit.compiled
    rw [made] at compiled
    obtain ⟨run⟩ := entityRun_of_compileEntity compiled
    refine ⟨built, rfl, ⟨run⟩, ?_⟩
    rw [record, ModelStore.get?_add, if_pos (model_eq_ok run.built).1.symm]

/-- An entity that comes later is visited after this one. -/
theorem laterVisit (visit : Visit config registry name after) {other : String}
    (succeeded : (compileEntities config (prepared config registry).2.registry.names).runOn
      (prepared config registry).2 = (.ok (), after))
    (nodup : (prepared config registry).2.registry.names.Nodup) (member : other ∈ visit.later) :
    Nonempty (Visit config registry other after) ∧
      Steps visit.later (visit.done.record visit.made) (reaching config registry other) := by
  obtain ⟨between, rest, split⟩ := List.append_of_mem member
  have names : (prepared config registry).2.registry.names =
      (visit.earlier ++ name :: between) ++ other :: rest := by
    rw [visit.names, split]
    simp
  rw [names] at nodup
  obtain ⟨notEarlier, notLater⟩ := notMem_of_nodup_cut nodup
  obtain ⟨later, sameEarlier, -⟩ := visit_of_names succeeded names notEarlier notLater
  refine ⟨⟨later⟩, ?_⟩
  have reached := later.reached
  rw [sameEarlier] at reached
  obtain ⟨start, made, done, reachedHere, compiled, goesOn⟩ := compileEntities_cut reached
  obtain ⟨-, rfl⟩ := Prod.mk.inj (visit.reached.symm.trans reachedHere)
  obtain ⟨sameMade, rfl⟩ := Prod.mk.inj (visit.compiled.symm.trans compiled)
  obtain rfl := Except.ok.inj sameMade
  have fewer : between ⊆ visit.later := split ▸ List.subset_append_left _ _
  exact (compileEntities_moves config between fewer).steps goesOn

theorem recordSteps (visit : Visit config registry name after) :
    Steps (name :: visit.later) visit.done (visit.done.record visit.made) :=
  record_steps visit.compiled List.mem_cons_self

/-- An entity that is compiled now or later is visited from before one moment on or after the next
one, where both are moments of this visit, and is done after them. -/
theorem exists_visit (visit : Visit config registry name after) {state next : Compilation}
    {target : String}
    (succeeded : (compileEntities config (prepared config registry).2.registry.names).runOn
      (prepared config registry).2 = (.ok (), after))
    (nodup : (prepared config registry).2.registry.names.Nodup)
    (toState : Steps [] (reaching config registry name) state) (toDone : Steps [] next visit.done)
    (member : target ∈ name :: visit.later) :
    ∃ other : Visit config registry target after,
      (Steps (name :: visit.later) (reaching config registry target) state ∨
        Steps (name :: visit.later) next (reaching config registry target)) ∧
      Steps (name :: visit.later) next other.done := by
  have done : Steps (name :: visit.later) next visit.done := toDone.mono (List.nil_subset _)
  rcases List.mem_cons.mp member with rfl | isLater
  · exact ⟨visit, .inl (toState.mono (List.nil_subset _)), done⟩
  · obtain ⟨⟨other⟩, between⟩ := visit.laterVisit succeeded nodup isLater
    have toTarget : Steps (name :: visit.later) next (reaching config registry target) :=
      (done.trans visit.recordSteps).trans (between.mono (List.subset_cons_self _ _))
    exact ⟨other, .inr toTarget, toTarget.trans (other.doneSteps.mono (List.nil_subset _))⟩

end Visit

/-- A relationship without an association table is linked by a foreign key. -/
theorem link_direct {relationship : Relationship}
    (direct : relationship.cardinality.needsAssociationTable = false) :
    link name relationship = addForeignKey (relationship.holder name) (relationship.owning name)
      relationship.foreignKeyColumn relationship.keyNullable := by
  unfold link Relationship.holder Relationship.owning Relationship.keyNullable
  cases cardinality : relationship.cardinality with
  | manyToMany secondary => simp [cardinality, Cardinality.needsAssociationTable] at direct
  | oneToMany => rfl
  | manyToOne => rfl
  | oneToOne => rfl

/-- Linking a relationship with an association table collects the table. -/
theorem link_joined {relationship : Relationship} {secondary : String} {before after : Compilation}
    (joined : relationship.cardinality = .manyToMany secondary) :
    (link name relationship).runOn before = (.ok (), after) ↔
      ∃ table, before.registry.association secondary name relationship.modelName = .ok table ∧
        (addTable table).runOn before = (.ok (), after) := by
  unfold link
  rw [joined]
  dsimp only
  rw [CompileM.runOn_bind_eq_ok]
  constructor
  · rintro ⟨table, middle, asked, added⟩
    obtain ⟨found, rfl⟩ := Prod.mk.inj asked
    exact ⟨table, found, added⟩
  · rintro ⟨table, found, added⟩
    exact ⟨table, before, by rw [CompileM.runOn_ask, found], added⟩

/-- Adding a foreign key ensures it, and leaves the tables as they are. -/
theorem addForeignKey_eq_ok {target owning column : String} {nullable : Option Bool}
    {before after : Compilation} :
    (addForeignKey target owning column nullable).runOn before = (.ok (), after) ↔
      before.registry.ensureForeignKey before.store target owning column nullable =
        .ok (after.registry, after.store) ∧ after.tables = before.tables := by
  unfold addForeignKey
  simp only [CompileM.runOn_bind, CompileM.runOn_get]
  cases before.registry.ensureForeignKey before.store target owning column nullable with
  | error e => simp
  | ok ensured =>
    obtain ⟨registry, store⟩ := ensured
    obtain ⟨afterRegistry, afterStore, afterTables⟩ := after
    simp only [CompileM.runOn_set, Prod.mk.injEq, Compilation.mk.injEq, Except.ok.injEq]
    constructor
    · rintro ⟨-, sameRegistry, sameStore, sameTables⟩
      exact ⟨⟨sameRegistry, sameStore⟩, sameTables.symm⟩
    · rintro ⟨⟨sameRegistry, sameStore⟩, sameTables⟩
      exact ⟨trivial, sameRegistry, sameStore, sameTables.symm⟩

/-- Linking a relationship without an association table ensures a foreign key. -/
theorem link_eq_ok {relationship : Relationship} {before : Compilation}
    (direct : relationship.cardinality.needsAssociationTable = false)
    (linked : (link name relationship).runOn before = (.ok (), after)) :
    ∃ nullable, before.registry.ensureForeignKey before.store (relationship.holder name)
      (relationship.owning name) relationship.foreignKeyColumn nullable =
        .ok (after.registry, after.store) := by
  rw [link_direct direct] at linked
  exact ⟨_, (addForeignKey_eq_ok.mp linked).1⟩

namespace EntityRun

variable {before : Compilation} {model : Model}

theorem properties_eq (run : EntityRun name before after model) :
    run.properties = before.registry.declared name := by
  rw [Registry.declared_eq run.registered run.ownFound]
  exact propertiesOf_eq_ok run.propertiesFound

/-- A relationship of the model was gathered. -/
theorem gathered_of_relationships (run : EntityRun name before after model)
    {relationship : Relationship} (related : (property, relationship) ∈ model.relationships) :
    (property, relationship) ∈ run.gathered := by
  obtain ⟨-, properties, -, compiled⟩ := model_eq_ok run.built
  obtain ⟨compiledProperty, member, isRelated⟩ := List.mem_filterMap.mp related
  obtain ⟨found, isRelationship, same⟩ := Option.map_eq_some_iff.mp isRelated
  obtain ⟨rfl, rfl⟩ := Prod.mk.inj same
  rw [relationship_of_modelProperties compiled compiledProperty member] at isRelationship
  exact Keyed.mem_of_get? isRelationship

/-- When the run links a relationship of the model, it has linked the properties before. -/
theorem linked_at (run : EntityRun name before after model) (keyed : before.registry.WellKeyed)
    {relationship : Relationship} (related : (property, relationship) ∈ model.relationships) :
    ∃ state next, ((linkProperties name
        ((before.registry.declared name).takeWhile (·.1 ≠ property))).runOn before).2 = state ∧
      Steps [] before state ∧ (link name relationship).runOn state = (.ok (), next) ∧
      Steps [] next after := by
  have isGathered := run.gathered_of_relationships related
  obtain ⟨schema, _, member, -⟩ := gathered_of_linkProperties run.linked _ isGathered
  obtain ⟨first, later, split⟩ := List.append_of_mem member
  have distinct := keyed.distinct_declared name
  rw [← run.properties_eq, split] at distinct
  obtain ⟨notFirst, notLater⟩ := Keyed.notMem_keys_of_cut distinct
  have linked := run.linked
  rw [split] at linked
  obtain ⟨state, here, next, some, others, earlier, atProperty, rest, parts⟩ :=
    linkProperties_cut linked
  rw [parts] at isGathered
  have isHere : here = .some relationship := by
    rcases List.mem_append.mp isGathered with inSome | isGathered
    · obtain ⟨_, _, inFirst, -⟩ := gathered_of_linkProperties earlier _ inSome
      exact absurd (List.mem_map.mpr ⟨_, inFirst, rfl⟩) notFirst
    rcases List.mem_append.mp isGathered with inHere | inOthers
    · obtain ⟨found, isHere, same⟩ := Option.map_eq_some_iff.mp (Option.mem_toList.mp inHere)
      rw [isHere, (Prod.mk.inj same).2]
    · obtain ⟨_, _, inLater, -⟩ := gathered_of_linkProperties rest _ inOthers
      exact absurd (List.mem_map.mpr ⟨_, inLater, rfl⟩) notLater
  subst isHere
  have ends : (before.registry.declared name).takeWhile (·.1 ≠ property) = first := by
    rw [← run.properties_eq, split]
    exact Keyed.takeWhile_ne_of_cut notFirst
  refine ⟨state, next, ?_, ?_, (linkProperty_eq_some atProperty).2, ?_⟩
  · rw [ends, earlier]
  · exact (linkProperties_moves name first).steps earlier
  · exact (linkProperties_moves name later).steps rest

end EntityRun

end Compilation

end EntityMapping
