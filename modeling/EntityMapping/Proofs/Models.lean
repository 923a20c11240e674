import EntityMapping.Model.Store

/-!
Lookups in the models that have been built. Changing or adding a model changes what is found under
its name only, and a column that is added to a model stays behind the properties it had.
-/

set_option autoImplicit false
set_option relaxedAutoImplicit false

namespace EntityMapping

namespace Model

variable (model : Model) (name other : String) (schema : Json) (column : Column)

theorem property?_addColumn : (model.addColumn name schema column).property? other =
    (model.property? other).or
      (if name = other then some ⟨name, .column column, schema⟩ else none) := by
  unfold property? addColumn
  rw [List.find?_append]
  by_cases same : name = other <;> simp [same]

theorem hasProperty_addColumn : (model.addColumn name schema column).hasProperty other =
    (model.hasProperty other || decide (name = other)) := by
  unfold hasProperty
  rw [property?_addColumn]
  cases model.property? other with
  | some property => simp
  | none => by_cases same : name = other <;> simp [same]

end Model

namespace ModelStore

variable {change : Model → Model}

theorem get?_cons (model : Model) (store : ModelStore) (name : String) :
    get? (model :: store) name = if model.name = name then some model else get? store name := by
  unfold get?
  by_cases same : model.name = name <;> simp [same]

theorem get?_update {name : String}
    (keeps : ∀ model, model.name = name → (change model).name = name) (store : ModelStore)
    (other : String) : get? (update change name store) other =
      if other = name then (get? store other).map change else get? store other := by
  induction store with
  | nil => simp [update, get?]
  | cons model rest ih =>
    rw [update]
    by_cases here : model.name = name
    · rw [if_pos here, get?_cons, get?_cons, keeps model here, here]
      by_cases same : name = other
      · simp [same]
      · simp [same, Ne.symm same]
    · rw [if_neg here, get?_cons, get?_cons, ih]
      by_cases found : model.name = other
      · have different : other ≠ name := fun same => here (found.trans same)
        simp [found, different]
      · simp [found]

theorem forall_mem_update_of_get? {holds : Model → Prop} {name : String} {store : ModelStore}
    (each : ∀ model ∈ store, holds model)
    (changed : ∀ model, get? store name = some model → holds (change model)) :
    ∀ model ∈ update change name store, holds model := by
  induction store with
  | nil => exact each
  | cons first rest ih =>
    obtain ⟨here, later⟩ := List.forall_mem_cons.mp each
    rw [update]
    split
    · rename_i same
      exact List.forall_mem_cons.mpr ⟨changed first (by rw [get?_cons, if_pos same]), later⟩
    · rename_i different
      refine List.forall_mem_cons.mpr ⟨here, ih later fun model found => changed model ?_⟩
      rw [get?_cons, if_neg different, found]

theorem forall_mem_update {holds : Model → Prop} {name : String} {store : ModelStore}
    (each : ∀ model ∈ store, holds model) (kept : ∀ model, holds model → holds (change model)) :
    ∀ model ∈ update change name store, holds model :=
  forall_mem_update_of_get? each fun model found =>
    kept model (each model (List.mem_of_find?_eq_some found))

theorem forall_mem_add {holds : Model → Prop} {store : ModelStore} {added : Model}
    (each : ∀ model ∈ store, holds model) (new : holds added) :
    ∀ model ∈ add store added, holds model := by
  unfold add
  split
  · exact forall_mem_update each fun _ _ => new
  · exact List.forall_mem_append.mpr ⟨each, List.forall_mem_singleton.mpr new⟩

/-- A column that is attached is found on its model. -/
theorem get?_attach (store : ModelStore) (name property : String) (schema : Json)
    (column : Column) (other : String) :
    get? (update (fun model => model.addColumn property schema column) name store) other =
      if other = name then
        (get? store other).map fun model => model.addColumn property schema column
      else get? store other := by
  apply get?_update
  intro model same
  exact same

theorem hasProperty_attach {store : ModelStore} {name : String} (built : isBuilt store name = true)
    (property : String) (schema : Json) (column : Column) :
    hasProperty (update (fun model => model.addColumn property schema column) name store) name
      property = true := by
  obtain ⟨model, found⟩ := Option.isSome_iff_exists.mp built
  rw [hasProperty, get?_attach, if_pos rfl, found]
  simp [Model.hasProperty_addColumn]

theorem get?_add (store : ModelStore) (model : Model) (other : String) :
    get? (add store model) other = if other = model.name then some model else get? store other := by
  unfold add
  by_cases built : isBuilt store model.name = true
  · rw [if_pos built, get?_update fun _ _ => rfl]
    by_cases same : other = model.name
    · obtain ⟨existing, found⟩ := Option.isSome_iff_exists.mp built
      simp [same, found]
    · simp [same]
  · have absent : get? store model.name = none := by simpa [isBuilt] using built
    rw [if_neg built]
    unfold get? at absent ⊢
    simp only [List.append_eq, List.find?_append]
    by_cases same : other = model.name
    · simp [same, absent]
    · simp [same, Ne.symm same]

end ModelStore

end EntityMapping
