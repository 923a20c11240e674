import EntityMapping.Proofs.Declarations
import EntityMapping.Proofs.Models

/-!
Models in the course of a run. Once the model of an entity has been built, it keeps its properties;
key columns may be attached behind them, each under a name that neither the model has nor the entity
declares in its own schema.
-/

set_option autoImplicit false
set_option relaxedAutoImplicit false

namespace EntityMapping

namespace Model

/-- The properties of a model, with columns behind them. -/
def ColumnsAdded (before after : Model) : Prop :=
  ∃ added : List ModelProperty, (∀ property ∈ added, property.artifacts.relationship? = none) ∧
    after = { before with properties := before.properties ++ added }

namespace ColumnsAdded

variable {before middle after : Model}

theorem refl (model : Model) : ColumnsAdded model model := ⟨[], by simp, by simp⟩

theorem trans (first : ColumnsAdded before middle) (second : ColumnsAdded middle after) :
    ColumnsAdded before after := by
  obtain ⟨one, columns, rfl⟩ := first
  obtain ⟨two, columnsToo, rfl⟩ := second
  refine ⟨one ++ two, fun property member => ?_, by simp [List.append_assoc]⟩
  exact (List.mem_append.mp member).elim (columns property) (columnsToo property)

theorem addColumn (model : Model) (property : String) (schema : Json) (column : Column) :
    ColumnsAdded model (model.addColumn property schema column) := by
  refine ⟨[⟨property, .column column, schema⟩], fun other member => ?_, rfl⟩
  rw [List.mem_singleton.mp member]
  rfl

theorem relationships (added : ColumnsAdded before after) :
    after.relationships = before.relationships := by
  obtain ⟨columns, only, rfl⟩ := added
  have none : columns.filterMap (fun property =>
      property.artifacts.relationship?.map fun found => (property.name, found)) = [] := by
    refine List.filterMap_eq_nil_iff.mpr fun property member => ?_
    rw [only property member]
    rfl
  rw [Model.relationships, List.filterMap_append, none, List.append_nil]
  rfl

/-- A property that the model had is still the first one of its name. -/
theorem property? (added : ColumnsAdded before after) {name : String} {property : ModelProperty}
    (found : before.property? name = some property) : after.property? name = some property := by
  obtain ⟨columns, -, rfl⟩ := added
  unfold Model.property? at found ⊢
  rw [List.find?_append, found]
  rfl

end ColumnsAdded

end Model

namespace ModelStore

theorem map_update {β : Type} {of : Model → β} {change : Model → Model} {name : String}
    (keeps : ∀ model, model.name = name → of (change model) = of model) (store : ModelStore) :
    (update change name store).map of = store.map of := by
  induction store with
  | nil => rfl
  | cons model rest ih =>
    rw [update]
    split
    · rename_i here
      rw [List.map_cons, List.map_cons, keeps model here]
    · rw [List.map_cons, List.map_cons, ih]

theorem names_update {change : Model → Model} {name : String}
    (keeps : ∀ model, model.name = name → (change model).name = name) (store : ModelStore) :
    (update change name store).map Model.name = store.map Model.name :=
  map_update (fun model same => (keeps model same).trans same.symm) store

theorem get?_eq_none_iff (store : ModelStore) (name : String) :
    get? store name = none ↔ name ∉ store.map Model.name := by
  simp [get?, List.find?_eq_none]

theorem get?_of_mem {store : ModelStore} (nodup : (store.map Model.name).Nodup) {model : Model}
    (member : model ∈ store) : get? store model.name = some model := by
  induction store with
  | nil => simp at member
  | cons first rest ih =>
    rw [List.map_cons, List.nodup_cons] at nodup
    rw [get?_cons]
    rcases List.mem_cons.mp member with rfl | later
    · rw [if_pos rfl]
    · have different : first.name ≠ model.name := fun same =>
        nodup.1 (same ▸ List.mem_map.mpr ⟨model, later, rfl⟩)
      rw [if_neg different]
      exact ih nodup.2 later

/-- A model of a new name is added behind the others. -/
theorem add_of_not_mem {store : ModelStore} {model : Model}
    (fresh : model.name ∉ store.map Model.name) : add store model = store ++ [model] := by
  have absent : get? store model.name = none := (get?_eq_none_iff store model.name).mpr fresh
  have notBuilt : isBuilt store model.name = false := by simp [isBuilt, absent]
  simp [add, notBuilt]

theorem nodup_add {store : ModelStore} (nodup : (store.map Model.name).Nodup) (model : Model) :
    ((add store model).map Model.name).Nodup := by
  unfold add
  split
  · rw [names_update fun _ _ => rfl]
    exact nodup
  · rename_i notBuilt
    have absent : get? store model.name = none := by simpa [isBuilt] using notBuilt
    rw [get?_eq_none_iff] at absent
    rw [List.append_eq, List.map_append]
    exact List.Nodup.append nodup (List.nodup_singleton _) (by simpa using absent)

end ModelStore

namespace Compilation

open Model (ColumnsAdded)

variable {names : List String} {before after : Compilation} {name : String}

/-- What a step does to the model of an entity that it does not compile: nothing, or it attaches a
column that the model does not have and the entity does not declare. -/
theorem Step.get?_store (step : Step names before after) (other : name ∉ names) :
    ModelStore.get? after.store name = ModelStore.get? before.store name ∨
      ∃ built property schema column, ModelStore.get? before.store name = some built ∧
        built.hasProperty property = false ∧
        property ∉ Keyed.keys (before.registry.declared name) ∧
        ModelStore.get? after.store name = some (built.addColumn property schema column) := by
  cases step with
  | table => exact .inl rfl
  | @model model member =>
    have different : name ≠ model.name := fun same => other (same ▸ member)
    rw [ModelStore.get?_add, if_neg different]
    exact .inl rfl
  | @key target _ _ _ _ _ ensured =>
    obtain ⟨schema, own, source, entry, ownFound, -, change⟩ :=
      Registry.ensuresKey_of_ensureForeignKey ensured
    cases change with
    | satisfied => exact .inl rfl
    | taken => exact .inl rfl
    | written => exact .inl rfl
    | @attached fields key missing _ _ isBuilt lacks =>
      rw [ModelStore.get?_attach]
      by_cases same : name = target
      · subst same
        obtain ⟨built, found⟩ := Option.isSome_iff_exists.mp isBuilt
        rw [ModelStore.hasProperty, found, Option.any_some] at lacks
        rw [if_pos rfl, found, Option.map_some]
        exact .inr ⟨built, _, _, _, rfl, lacks,
          (Registry.not_declared_of_flatProperty? entry ownFound).mp missing, rfl⟩
      · rw [if_neg same]
        exact .inl rfl

theorem Step.nodup_store (step : Step names before after)
    (nodup : (before.store.map Model.name).Nodup) : (after.store.map Model.name).Nodup := by
  cases step with
  | table => exact nodup
  | model => exact ModelStore.nodup_add nodup _
  | key ensured =>
    obtain ⟨schema, own, source, -, -, -, change⟩ := Registry.ensuresKey_of_ensureForeignKey ensured
    cases change with
    | satisfied => exact nodup
    | taken => exact nodup
    | written => exact nodup
    | attached =>
      dsimp only
      rw [ModelStore.names_update]
      · exact nodup
      · exact fun _ same => same

/-- There is one model of a name at most. -/
theorem Steps.nodup_store (steps : Steps names before after)
    (nodup : (before.store.map Model.name).Nodup) : (after.store.map Model.name).Nodup := by
  induction steps with
  | refl => exact nodup
  | tail _ step ih => exact step.nodup_store ih

/-- No model of an entity is built that is not compiled. -/
theorem Steps.not_built (steps : Steps names before after) (other : name ∉ names)
    (absent : ModelStore.get? before.store name = none) :
    ModelStore.get? after.store name = none := by
  induction steps with
  | refl => exact absent
  | tail _ step ih =>
    rcases step.get?_store other with same | ⟨built, _, _, _, found, -⟩
    · exact same.trans ih
    · cases ih.symm.trans found

/-- Once built, a model is only added to. -/
theorem Steps.built (steps : Steps names before after) (other : name ∉ names) {model : Model}
    (found : ModelStore.get? before.store name = some model) :
    ∃ later, ModelStore.get? after.store name = some later ∧ ColumnsAdded model later := by
  induction steps with
  | refl => exact ⟨model, found, .refl model⟩
  | tail _ step ih =>
    obtain ⟨later, foundLater, added⟩ := ih
    rcases step.get?_store other with same | ⟨built, property, schema, column, found, -, -, next⟩
    · exact ⟨later, same.trans foundLater, added⟩
    · obtain rfl := Option.some.inj (foundLater.symm.trans found)
      exact ⟨_, next, added.trans (.addColumn later property schema column)⟩

/-- What a model has under a name that the entity declares does not change any more. -/
theorem Steps.property? (steps : Steps names before after) (other : name ∉ names) {model : Model}
    {property : String} (keyed : before.registry.WellKeyed)
    (found : ModelStore.get? before.store name = some model)
    (isDeclared : property ∈ Keyed.keys (before.registry.declared name)) :
    ∃ later, ModelStore.get? after.store name = some later ∧
      later.property? property = model.property? property := by
  induction steps with
  | refl => exact ⟨model, found, rfl⟩
  | tail earlier step ih =>
    obtain ⟨later, foundLater, same⟩ := ih
    rcases step.get?_store other with unchanged | ⟨built, another, schema, column, found, -, fresh,
      next⟩
    · exact ⟨later, unchanged.trans foundLater, same⟩
    · obtain rfl := Option.some.inj (foundLater.symm.trans found)
      have different : another ≠ property := fun equal =>
        fresh (equal ▸ Steps.declared earlier keyed name isDeclared)
      refine ⟨_, next, ?_⟩
      rw [Model.property?_addColumn, if_neg different, Option.or_none, same]

end Compilation

end EntityMapping
