import EntityMapping.Proofs.ForeignKeys
import EntityMapping.Proofs.Runs
import EntityMapping.Proofs.Wrapping

/-!
What a compilation adds to a registry. Every entity keeps its name, its place and its schema;
fragments are laid over the schema only, first one with back references if there are any, then one
for every foreign key column. No key column is added twice: a column that was added is found again
when the entity is flattened, with or without its parent. All of this holds of compilations that
fail as well.
-/

set_option autoImplicit false
set_option relaxedAutoImplicit false

namespace EntityMapping

open Keyed (Distinct)
open Registry (wrap propertyFragment backrefFragment)

/-- What is added to the schema of an entity: back references, and key columns with their schemas
in the order in which they are added. -/
structure Additions where
  backrefs : Option (Keyed Json)
  keys : Keyed (Keyed Json)
  notEmpty : backrefs ≠ some []
  distinct : Distinct keys
  pointing : ∀ key ∈ keys, ∃ pointsAt, Keyed.get? key.2 "x-foreign-key" = some (.str pointsAt)

namespace Additions

/-- A schema with a key column laid over it. -/
def withKey (schema : Json) (key : String × Keyed Json) : Json :=
  wrap schema (propertyFragment key.1 (.obj key.2))

/-- A schema with back references laid over it, if there are any. -/
def withBackrefs (schema : Json) : Option (Keyed Json) → Json
  | none => schema
  | some backrefs => wrap schema (backrefFragment backrefs)

/-- A schema with everything that is added to it. -/
def apply (additions : Additions) (schema : Json) : Json :=
  additions.keys.foldl withKey (withBackrefs schema additions.backrefs)

/-- Back references only. -/
def ofBackrefs (backrefs : Option (Keyed Json)) (notEmpty : backrefs ≠ some []) : Additions where
  backrefs := backrefs
  keys := []
  notEmpty := notEmpty
  distinct := Keyed.distinct_nil
  pointing := by simp

/-- One more key column. -/
def addKey (additions : Additions) (property : String) (fields : Keyed Json)
    (fresh : property ∉ Keyed.keys additions.keys)
    (points : ∃ pointsAt, Keyed.get? fields "x-foreign-key" = some (.str pointsAt)) :
    Additions where
  backrefs := additions.backrefs
  keys := additions.keys ++ [(property, fields)]
  notEmpty := additions.notEmpty
  distinct := (Keyed.distinct_append_singleton _ _).mpr ⟨additions.distinct, fresh⟩
  pointing := by
    intro key member
    rcases List.mem_append.mp member with before | last
    · exact additions.pointing key before
    · rw [List.mem_singleton.mp last]
      exact points

@[simp] theorem apply_addKey (additions : Additions) {property : String} {fields : Keyed Json}
    (fresh : property ∉ Keyed.keys additions.keys)
    (points : ∃ pointsAt, Keyed.get? fields "x-foreign-key" = some (.str pointsAt))
    (schema : Json) : (additions.addKey property fields fresh points).apply schema =
      wrap (additions.apply schema) (propertyFragment property (.obj fields)) := by
  simp [apply, addKey, List.foldl_append, withKey]

end Additions

namespace Registry

variable {registry : Registry} {skip : Option String} {hops : Nat} {visited : List String}
  {name : String}

/-- Key columns that are laid over a schema are among the properties of the flat schema. -/
theorem hasProperty_of_flattenFrom {keys : Keyed (Keyed Json)} {schema : Json} {flat : FlatSchema}
    (distinct : Distinct keys)
    (flattened : registry.flattenFrom skip hops visited name
      (keys.foldl Additions.withKey schema) = .ok flat) :
    (keys ≠ [] → Distinct flat.fields) ∧
      ∀ key ∈ keys, HasProperty flat.fields key.1 (.obj key.2) := by
  induction keys using List.reverseRecOn generalizing flat with
  | nil => simp
  | append_singleton keys last ih =>
    rw [List.foldl_append, List.foldl_cons, List.foldl_nil, Additions.withKey,
      flattenFrom_wrap (isFragment_propertyFragment ..)] at flattened
    obtain ⟨below, flattenedBelow, laid⟩ := bind_eq_ok.mp flattened
    obtain rfl := Except.ok.inj laid
    obtain ⟨distinctKeys, fresh⟩ := (Keyed.distinct_append_singleton _ _).mp distinct
    obtain ⟨distinctBelow, hasBelow⟩ := ih distinctKeys flattenedBelow
    refine ⟨fun _ => distinct_overlaid _ _, fun key member => ?_⟩
    rcases List.mem_append.mp member with before | isLast
    · have different : key.1 ≠ last.1 := fun same =>
        fresh (same ▸ List.mem_map.mpr ⟨key, before, rfl⟩)
      exact (hasBelow key before).overlaid (distinctBelow (List.ne_nil_of_mem before)) different
    · rw [List.mem_singleton.mp isLast]
      exact hasProperty_overlaid _ _ _

/-- A property that an entity has is found on its flat schema. -/
theorem flatProperty?_ne_none {entity : Keyed Json} {property : String} {schema : Json}
    (has : HasProperty entity property schema) :
    registry.flatProperty? entity property ≠ .ok none := by
  obtain ⟨properties, written, found⟩ := has
  have listed : (Keyed.get? entity "properties").bind (·.get? property) = some schema := by
    rw [written]
    exact found
  simp only [flatProperty?, listed]
  cases registry.flatten property schema <;> simp

/-- A property that an entity does not have is none of the key columns laid over its schema. -/
theorem fresh_of_flatProperty? {keys : Keyed (Keyed Json)} {schema : Json} {flat : FlatSchema}
    {property : String} (distinct : Distinct keys)
    (flattened : registry.flattenFrom skip hops visited name
      (keys.foldl Additions.withKey schema) = .ok flat)
    (missing : registry.flatProperty? flat.fields property = .ok none) :
    property ∉ Keyed.keys keys := by
  intro member
  obtain ⟨key, inKeys, rfl⟩ := List.mem_map.mp member
  exact flatProperty?_ne_none ((hasProperty_of_flattenFrom distinct flattened).2 key inKeys) missing

/-- Every entity as it was, with additions. -/
def Extends (before after : Registry) : Prop :=
  List.Forall₂ (fun entry extended => entry.1 = extended.1 ∧
    ∃ additions : Additions, extended.2 = additions.apply entry.2) before.entries after.entries

variable {base next : Registry} {store after : ModelStore} {target owning column : String}
  {nullable : Option Bool}

theorem Extends.refl (registry : Registry) : registry.Extends registry :=
  List.forall₂_same.mpr fun _ _ => ⟨rfl, .ofBackrefs none (by simp), rfl⟩

/-- Ensuring a foreign key adds one key column at most, and none that was added before. -/
theorem Extends.of_ensureForeignKey (additions : base.Extends registry)
    (ensured : registry.ensureForeignKey store target owning column nullable = .ok (next, after)) :
    base.Extends next := by
  obtain ⟨schema, own, source, entry, ownFound, -, change⟩ := ensuresKey_of_ensureForeignKey ensured
  cases change with
  | satisfied => exact additions
  | taken => exact additions
  | attached => exact additions
  | @written fields missing isKey _ _ =>
    refine Keyed.forall₂_set additions entry (fun _ _ same => same) ?_
    rintro ⟨_, original⟩ ⟨rfl, earlier, rfl⟩
    obtain ⟨-, flat, flattened, sameFields⟩ := ownSchema_eq_ok.mp ownFound
    have fresh := fresh_of_flatProperty? earlier.distinct flattened (sameFields ▸ missing)
    exact ⟨rfl, earlier.addKey _ fields fresh ⟨_, isKey.pointsAt⟩,
      (earlier.apply_addKey fresh ⟨_, isKey.pointsAt⟩ original).symm⟩

/-- What a run changes extends the registry. -/
theorem Extends.of_steps {names : List String} {first last : Compilation}
    (additions : base.Extends first.registry) (steps : Compilation.Steps names first last) :
    base.Extends last.registry := by
  induction steps with
  | refl => exact additions
  | tail _ step ih =>
    cases step with
    | table => exact ih
    | key ensured => exact ih.of_ensureForeignKey ensured
    | model => exact ih

end Registry

theorem BackrefGroups.distinct_add {groups next : BackrefGroups} {entry : ReverseProperty}
    (distinct : Distinct groups) (added : groups.add entry = .ok next) : Distinct next := by
  unfold add at added
  dsimp only at added
  split at added
  · obtain rfl := Except.ok.inj added
    exact Keyed.distinct_set distinct _ _
  · split at added
    · exact Except.ok.inj added ▸ distinct
    · cases added

namespace Registry

variable {registry : Registry}

theorem distinct_backrefGroups {groups : BackrefGroups}
    (found : registry.backrefGroups = .ok groups) : Distinct groups := by
  refine foldlM_eq_ok_induction ?_ Keyed.distinct_nil found
  intro groups next entry _ distinct added
  obtain ⟨entries, -, folded⟩ := bind_eq_ok.mp added
  exact foldlM_eq_ok_induction (fun _ _ _ _ => BackrefGroups.distinct_add) distinct folded

/-- Every entity as it was, with back references at most; entities of some names have none yet. -/
def BackrefsExtend (pending : List String) (before after : Registry) : Prop :=
  List.Forall₂ (fun entry extended => entry.1 = extended.1 ∧ ∃ backrefs, backrefs ≠ some [] ∧
    extended.2 = Additions.withBackrefs entry.2 backrefs ∧
    (entry.1 ∈ pending → backrefs = none)) before.entries after.entries

theorem BackrefsExtend.refl (pending : List String) (registry : Registry) :
    BackrefsExtend pending registry registry :=
  List.forall₂_same.mpr fun _ _ => ⟨rfl, none, by simp, rfl, fun _ => rfl⟩

theorem BackrefsExtend.extends {pending : List String} {base : Registry}
    (backrefs : BackrefsExtend pending base registry) : base.Extends registry := by
  refine backrefs.imp ?_
  rintro entry extended ⟨sameName, added, notEmpty, sameSchema, -⟩
  exact ⟨sameName, .ofBackrefs added notEmpty, sameSchema⟩

/-- Adding the back references of an entity that has none yet. -/
theorem BackrefsExtend.of_addBackrefs {base next : Registry} {group : String × Keyed Json}
    {pending : List String} (backrefs : BackrefsExtend (group.1 :: pending) base registry)
    (once : group.1 ∉ pending) (added : registry.addBackrefs group = .ok next) :
    BackrefsExtend pending base next := by
  obtain ⟨model, implied⟩ := group
  have fewer : ∀ entry extended : String × Json, (entry.1 = extended.1 ∧ ∃ backrefs,
        backrefs ≠ some [] ∧ extended.2 = Additions.withBackrefs entry.2 backrefs ∧
        (entry.1 ∈ model :: pending → backrefs = none)) →
      (entry.1 = extended.1 ∧ ∃ backrefs, backrefs ≠ some [] ∧
        extended.2 = Additions.withBackrefs entry.2 backrefs ∧
        (entry.1 ∈ pending → backrefs = none)) := by
    rintro entry extended ⟨sameName, backrefs, notEmpty, sameSchema, untouched⟩
    exact ⟨sameName, backrefs, notEmpty, sameSchema, fun member => untouched (.tail _ member)⟩
  cases entry : registry.get? model with
  | none => simp [addBackrefs, entry] at added
  | some schema =>
  simp only [addBackrefs, entry, pure_eq_ok, ok_bind] at added
  obtain ⟨flat, -, added⟩ := bind_eq_ok.mp added
  obtain ⟨missing, -, added⟩ := bind_eq_ok.mp added
  split at added
  · exact Except.ok.inj added ▸ backrefs.imp fewer
  · rename_i isNew
    rw [replace, if_pos (contains_of_get? entry)] at added
    obtain rfl := Except.ok.inj added
    refine Keyed.forall₂_set backrefs entry fewer ?_
    rintro ⟨_, original⟩ ⟨rfl, earlier, notEmpty, rfl, untouched⟩
    obtain rfl := untouched List.mem_cons_self
    have notNone : some missing ≠ some [] := fun same => isNew (by simp [Option.some.inj same])
    exact ⟨rfl, some missing, notNone, rfl, fun member => absurd member once⟩

theorem BackrefsExtend.of_addGroups {base : Registry} {groups : BackrefGroups}
    (backrefs : BackrefsExtend (Keyed.keys groups) base registry) (distinct : Distinct groups) :
    base.Extends (registry.addGroups groups).1 := by
  induction groups generalizing registry with
  | nil => exact backrefs.extends
  | cons group rest ih =>
    obtain ⟨once, distinctRest⟩ := (Keyed.distinct_cons _ _).mp distinct
    unfold addGroups
    cases added : registry.addBackrefs group with
    | error e => exact backrefs.extends
    | ok next => exact ih (backrefs.of_addBackrefs once added) distinctRest

/-- The back references of a registry extend it, also where adding them fails. -/
theorem extends_addAllBackrefs (registry : Registry) :
    registry.Extends registry.addAllBackrefs.1 := by
  unfold addAllBackrefs
  cases found : registry.backrefGroups with
  | error e => exact .refl registry
  | ok groups => exact (BackrefsExtend.refl _ registry).of_addGroups (distinct_backrefGroups found)

theorem extends_prepared (registry : Registry) (config : Config) :
    registry.Extends (Compilation.prepared config registry).2.registry := by
  rcases config with ⟨_ | path, validate, _ | _⟩
  · exact .refl registry
  · exact extends_addAllBackrefs registry
  · exact .refl registry
  · exact extends_addAllBackrefs { registry with place := some path }

theorem Extends.names {base : Registry} (additions : base.Extends registry) :
    registry.names = base.names := by
  have same : ∀ {entries others : Keyed Json}, List.Forall₂ (fun entry extended =>
      entry.1 = extended.1 ∧ ∃ additions : Additions, extended.2 = additions.apply entry.2)
        entries others → Keyed.keys others = Keyed.keys entries := by
    intro entries others each
    induction each with
    | nil => rfl
    | cons first _ ih => rw [Keyed.keys_cons, Keyed.keys_cons, ih, first.1]
  exact same additions

/-- A run keeps the names of the entities. -/
theorem names_of_steps {names : List String} {first last : Compilation}
    (steps : Compilation.Steps names first last) : last.registry.names = first.registry.names :=
  (Extends.of_steps (.refl _) steps).names

/-- Nothing that a registry says is lost when it is compiled, whether the compilation succeeds or
fails: its entities are those it had, in their order, and the schema of each is what it was, with
at most one fragment of back references laid over it and then fragments of different key columns. -/
theorem compile_extends (registry : Registry) (config : Config) :
    (registry.compile config).2.names = registry.names ∧
      List.Forall₂ (fun entry compiled => entry.1 = compiled.1 ∧
          ∃ additions : Additions, compiled.2 = additions.apply entry.2)
        registry.entries (registry.compile config).2.entries := by
  have additions : registry.Extends (registry.compile config).2 := by
    have prepared := extends_prepared registry config
    rw [compile_eq]
    generalize Compilation.prepared config registry = start at prepared ⊢
    obtain ⟨result, state⟩ := start
    cases result with
    | error e => exact prepared
    | ok _ =>
      have steps := Compilation.compileEntities_moves config state.registry.names
        (List.Subset.refl _) state
      have compiled := prepared.of_steps steps
      dsimp only
      generalize (Compilation.compileEntities config state.registry.names).runOn state = done
        at compiled ⊢
      obtain ⟨result, after⟩ := done
      cases result <;> exact compiled
  exact ⟨additions.names, additions⟩

end Registry

end EntityMapping
