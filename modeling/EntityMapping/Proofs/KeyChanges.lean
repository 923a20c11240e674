import Mathlib
import EntityMapping.Proofs.BackrefTurns
import EntityMapping.Proofs.EnsuringTwice
import EntityMapping.Proofs.Moments

/-!
What adding a foreign key changes. Once it is decided that an entity needs a key, nothing can fail
any more, so a failure leaves everything as it was. Otherwise one thing changes at most: the model of
the entity gets a column behind its properties, or the entry of the entity in the registry gets a
fragment on top. In the second case the entity's own schema, flattened after that, has one more
property, and is otherwise what it was.
-/

set_option autoImplicit false
set_option relaxedAutoImplicit false

namespace EntityMapping

open ForeignKey (Source IsKeySchema)
open Registry (wrap propertyFragment OwnSchema)

/-- A key that is present stands at one place; setting it changes nothing but that place. -/
theorem Keyed.exists_append_of_get? {α : Type} {fields : Keyed α} {key : String} {old : α}
    (found : get? fields key = some old) :
    ∃ earlier later, fields = earlier ++ (key, old) :: later ∧ key ∉ keys earlier ∧
      ∀ new, set fields key new = earlier ++ (key, new) :: later := by
  induction fields with
  | nil => cases found
  | cons pair rest ih =>
    obtain ⟨existing, value⟩ := pair
    by_cases same : existing = key
    · subst same
      obtain rfl : value = old := by simpa [get?_cons] using found
      exact ⟨[], rest, rfl, List.not_mem_nil, fun new => by simp [set]⟩
    · obtain ⟨earlier, later, rfl, fresh, placed⟩ := ih (by simpa [get?_cons, same] using found)
      refine ⟨(existing, value) :: earlier, later, rfl, ?_, fun new => ?_⟩
      · simp [fresh, Ne.symm same]
      · simp [set, same, placed]

/-- A model that is built stands at one place; changing it changes nothing but that place. -/
theorem ModelStore.exists_append_of_get? {store : ModelStore} {name : String} {built : Model}
    (found : get? store name = some built) :
    ∃ earlier later, store = earlier ++ built :: later ∧ (∀ model ∈ earlier, model.name ≠ name) ∧
      built.name = name ∧ ∀ change, update change name store = earlier ++ change built :: later := by
  induction store with
  | nil => cases found
  | cons model rest ih =>
    by_cases same : model.name = name
    · obtain rfl : model = built := by simpa [get?_cons, same] using found
      exact ⟨[], rest, rfl, by simp, same, fun change => by simp [update, same]⟩
    · obtain ⟨earlier, later, rfl, others, named, placed⟩ :=
        ih (by simpa [get?_cons, same] using found)
      refine ⟨model :: earlier, later, rfl, ?_, named, fun change => ?_⟩
      · exact List.forall_mem_cons.mpr ⟨same, others⟩
      · simp [update, same, placed]

/-- Keywords that are not there yet come behind the others. -/
theorem layOver_eq_append {laid fragment : Keyed Json}
    (fresh : ∀ keyword ∈ Keyed.keys fragment, keyword ∉ Keyed.keys laid)
    (distinct : Keyed.Distinct fragment) : layOver laid fragment = laid ++ fragment := by
  induction fragment generalizing laid with
  | nil => simp
  | cons field rest ih =>
    obtain ⟨keyword, value⟩ := field
    obtain ⟨notLater, distinctRest⟩ := (Keyed.distinct_cons _ _).mp distinct
    have absent := fresh keyword List.mem_cons_self
    have laidOne : layKeyword laid (keyword, value) = laid ++ [(keyword, value)] := by
      rw [layKeyword, (Keyed.get?_eq_none_iff laid keyword).mpr absent, joinValues,
        Keyed.set_of_not_mem _ absent]
      all_goals simp
    change layOver (layKeyword laid (keyword, value)) rest = _
    rw [laidOne, ih _ distinctRest, List.append_assoc, List.singleton_append]
    intro other inRest inLaid
    have either : other ∈ Keyed.keys laid ∨ other = keyword := by simpa [Keyed.keys] using inLaid
    rcases either with before | same
    · exact fresh other (List.mem_cons_of_mem _ inRest) before
    · exact notLater (same ▸ inRest)

theorem layOver_empty {flat : Keyed Json} (distinct : Keyed.Distinct flat) :
    layOver [] flat = flat := by
  rw [layOver_eq_append (by simp) distinct, List.nil_append]

/-- The properties of a flat schema are an object if they are there. -/
def ObjectProperties (flat : Keyed Json) : Prop :=
  ∀ value, Keyed.get? flat "properties" = some value → value.isObject = true

/-- A flat schema that describes an object with one more property. -/
def withProperty (flat : Keyed Json) (property : String) (schema : Json) : Keyed Json :=
  Keyed.set (Keyed.set flat "type" (.str "object")) "properties"
    (.obj (propertiesIn flat ++ [(property, schema)]))

/-- A new property over properties that are an object is one more property. -/
theorem overlaid_propertyFragment {flat : Keyed Json} {property : String} (schema : Json)
    (distinct : Keyed.Distinct flat) (objects : ObjectProperties flat)
    (fresh : property ∉ Keyed.keys (propertiesIn flat)) :
    overlaid flat (propertyFragment property schema) = withProperty flat property schema := by
  have joined : joinValues "properties" (Keyed.get? flat "properties")
      (.obj [(property, schema)]) = .obj (propertiesIn flat ++ [(property, schema)]) := by
    refine (Option.some.inj (laidValue_properties_obj _ _)).trans ?_
    unfold propertiesIn at fresh ⊢
    cases written : Keyed.get? flat "properties" with
    | none => rfl
    | some value =>
      have isObject := objects value written
      cases value with
      | obj old =>
        have absent : property ∉ Keyed.keys old := by rwa [written] at fresh
        rw [propertiesOver_obj, Keyed.setAll_cons, Keyed.setAll_nil, Keyed.set_of_not_mem _ absent]
        rfl
      | _ => cases isObject
  have typed : joinValues "type" (Keyed.get? flat "type") (.str "object") = .str "object" := rfl
  rw [overlaid, layOver_empty distinct]
  change layKeyword (layKeyword flat ("type", .str "object"))
    ("properties", .obj [(property, schema)]) = _
  have otherwise : "properties" ≠ "type" := by decide
  simp only [layKeyword, typed, Keyed.get?_set_of_ne _ _ otherwise, joined, withProperty]

namespace Registry

variable {registry next : Registry} {store after : ModelStore} {target owning column property : String}
  {nullable : Option Bool} {schema : Json} {own : OwnSchema} {fields : Keyed Json}

/-- A property with a key that is laid over an entity is laid over the entity's own schema. Its
parent stays. -/
theorem ownSchema_insert_property {type : PrimitiveType} {pointsAt : String}
    (keyed : registry.WellKeyed) (registered : registry.get? target = some schema)
    (isKey : IsKeySchema fields type pointsAt)
    (found : registry.ownSchema target schema = .ok own) :
    (registry.insert target (wrap schema (propertyFragment property (.obj fields)))).ownSchema target
        (wrap schema (propertyFragment property (.obj fields))) =
      .ok ⟨own.parent, overlaid own.fields (propertyFragment property (.obj fields))⟩ := by
  let rewriting := Rewriting.ofKey property keyed registered isKey
  obtain ⟨parentFound, flat, flattened, fieldsFound⟩ := ownSchema_eq_ok.mp found
  obtain ⟨whole, flattenedWhole, -⟩ := bind_eq_ok.mp parentFound
  have apart := not_reachesEntity_of_flatten registered flattenedWhole
  have sameParent : rewriting.changed.parent? target (wrap schema rewriting.fragment) =
      registry.parent? target schema :=
    Rewriting.parent?_changed (keyed.of_get? registered) (.inr ⟨rfl, rfl⟩)
  refine ownSchema_eq_ok.mpr ⟨sameParent.trans parentFound, ⟨target, _⟩, ?_, rfl⟩
  rw [flattenWithout] at flattened ⊢
  rw [flattenFrom_wrap (isFragment_propertyFragment _ _), chainLimit_insert registered,
    flattenFrom_insert apart, flattened, ok_bind, fieldsFound]

theorem distinct_ownSchema (keyed : registry.WellKeyed)
    (registered : registry.get? target = some schema)
    (found : registry.ownSchema target schema = .ok own) : Keyed.Distinct own.fields := by
  obtain ⟨-, flat, flattened, isOwn⟩ := ownSchema_eq_ok.mp found
  exact isOwn ▸
    keyed.distinct_of_derives (derives_of_flattenFrom flattened) (keyed.of_get? registered)

/-- A property that is not found is not declared. -/
theorem not_mem_of_flatProperty?
    (missing : registry.flatProperty? own.fields property = .ok none) :
    property ∉ Keyed.keys (propertiesIn own.fields) := by
  rw [← Keyed.get?_eq_none_iff, get?_propertiesIn]
  unfold flatProperty? at missing
  cases found : (Keyed.get? own.fields "properties").bind (·.get? property) with
  | none => rfl
  | some schema =>
    simp only [found] at missing
    obtain ⟨flat, -, same⟩ := bind_eq_ok.mp missing
    cases same

theorem wrap_ne_self (schema : Json) (fragment : Keyed Json) : wrap schema fragment ≠ schema := by
  intro same
  have sameSize := congrArg sizeOf same
  simp [wrap] at sameSize
  omega

end Registry

namespace Compilation

variable {before after : Compilation} {target owning column property : String}
  {nullable : Option Bool} {schema : Json} {fragment : Keyed Json}

/-- The model of an entity has got a column behind its properties, none of which had the name; all
else is as it was. -/
def GainsColumn (target property : String) (schema : Json) (before after : Compilation) : Prop :=
  ∃ earlier built later column, before.store = earlier ++ built :: later ∧
    (∀ model ∈ earlier, model.name ≠ target) ∧ built.name = target ∧
    built.hasProperty property = false ∧
    after = { before with store := earlier ++ built.addColumn property schema column :: later }

/-- The entry of an entity has got a fragment on top; all else is as it was. -/
def GainsFragment (target : String) (schema : Json) (fragment : Keyed Json)
    (before after : Compilation) : Prop :=
  ∃ earlier later, before.registry.entries = earlier ++ (target, schema) :: later ∧
    target ∉ Keyed.keys earlier ∧
    after = { before with registry := { before.registry with
      entries := earlier ++ (target, wrap schema fragment) :: later } }

theorem GainsColumn.store_ne (gains : GainsColumn target property schema before after) :
    after.store ≠ before.store := by
  obtain ⟨earlier, built, later, column, store, -, -, -, rfl⟩ := gains
  rw [store]
  intro same
  have sameModel := (List.cons.inj (List.append_cancel_left same)).1
  have sameLength := congrArg (fun model => model.properties.length) sameModel
  simp [Model.addColumn] at sameLength

theorem GainsFragment.entries_ne (gains : GainsFragment target schema fragment before after) :
    after.registry.entries ≠ before.registry.entries := by
  obtain ⟨earlier, later, entries, -, rfl⟩ := gains
  rw [entries]
  intro same
  have sameSchema := (Prod.mk.inj (List.cons.inj (List.append_cancel_left same)).1).2
  exact Registry.wrap_ne_self schema fragment sameSchema

theorem GainsColumn.registry_eq (gains : GainsColumn target property schema before after) :
    after.registry = before.registry := by
  obtain ⟨earlier, built, later, column, -, -, -, -, rfl⟩ := gains
  rfl

/-- The entry of an entity has got a key column on top. The entity's own schema had no property of
the name; where its properties are an object, it has one more now, and is otherwise what it was. -/
structure WritesKey (target property : String) (fields : Keyed Json) (schema : Json)
    (own : OwnSchema) (before after : Compilation) : Prop where
  gains : GainsFragment target schema (propertyFragment property (.obj fields)) before after
  registered : before.registry.get? target = some schema
  ownFound : before.registry.ownSchema target schema = .ok own
  fresh : property ∉ Keyed.keys (propertiesIn own.fields)
  ownAfter : ObjectProperties own.fields → after.registry.ownSchema target
      (wrap schema (propertyFragment property (.obj fields))) =
    .ok ⟨own.parent, withProperty own.fields property (.obj fields)⟩

/-- One of three things is so, and no two of them. -/
def ExactlyOne (first second third : Prop) : Prop :=
  (first ∨ second ∨ third) ∧ ¬ (first ∧ second) ∧ ¬ (first ∧ third) ∧ ¬ (second ∧ third)

theorem exactlyOne_change (changed : after = before ∨
      (∃ property schema, GainsColumn target property schema before after) ∨
      ∃ property fields schema own, WritesKey target property fields schema own before after) :
    ExactlyOne (after = before) (∃ property schema, GainsColumn target property schema before after)
      (∃ property fields schema own,
        WritesKey target property fields schema own before after) := by
  refine ⟨changed, ?_, ?_, ?_⟩
  · rintro ⟨rfl, property, schema, gains⟩
    exact gains.store_ne rfl
  · rintro ⟨rfl, property, fields, schema, own, writes⟩
    exact writes.gains.entries_ne rfl
  · rintro ⟨⟨_, _, attached⟩, _, _, _, _, writes⟩
    exact writes.gains.entries_ne (by rw [attached.registry_eq])

/-- What ensuring a key does, seen on the state of a run. -/
theorem change_of_ensuresKey {own : OwnSchema} {source : Source}
    (keyed : before.registry.WellKeyed) (registered : before.registry.get? target = some schema)
    (ownFound : before.registry.ownSchema target schema = .ok own)
    (ensures : before.registry.EnsuresKey before.store target column schema own source
      after.registry after.store) (sameTables : after.tables = before.tables) :
    after = before ∨ (∃ property schema, GainsColumn target property schema before after) ∨
      ∃ property fields schema own, WritesKey target property fields schema own before after := by
  obtain ⟨registry, store, tables⟩ := after
  obtain rfl : tables = before.tables := sameTables
  cases ensures with
  | satisfied => exact .inl rfl
  | taken => exact .inl rfl
  | @attached fields key missing isKey made isBuilt lacks =>
    obtain ⟨built, found⟩ := Option.isSome_iff_exists.mp isBuilt
    obtain ⟨earlier, later, store, others, named, placed⟩ := ModelStore.exists_append_of_get? found
    have lacksProperty : built.hasProperty (source.property column) = false := by
      simpa [ModelStore.hasProperty, found] using lacks
    exact .inr (.inl ⟨source.property column, .obj fields, earlier, built, later, key, store,
      others, named, lacksProperty, by rw [placed]⟩)
  | @written fields missing isKey made notBuilt =>
    obtain ⟨earlier, later, entries, others, placed⟩ := Keyed.exists_append_of_get? registered
    have fresh := Registry.not_mem_of_flatProperty? missing
    have distinct := Registry.distinct_ownSchema keyed registered ownFound
    refine .inr (.inr ⟨source.property column, fields, schema, own, ⟨earlier, later, entries,
      others, ?_⟩, registered, ownFound, fresh, fun objects => ?_⟩)
    · simp only [placed]
    · exact (Registry.ownSchema_insert_property keyed registered isKey ownFound).trans
        (by rw [overlaid_propertyFragment _ distinct objects fresh])

/-- Adding a foreign key is all or nothing. It fails exactly if it cannot be decided whether the
entity needs the key, and leaves everything as it was then. Otherwise exactly one thing is so:
nothing changes, or the model of the entity gets a column, or its entry gets the key. -/
theorem addForeignKey_atomic {result : Except SchemaError Unit} (keyed : before.registry.WellKeyed)
    (ran : (addForeignKey target owning column nullable).runOn before = (result, after)) :
    (∀ e, result = .error e ↔
        before.registry.foreignKey target owning column nullable = .error e) ∧
      (∀ e, result = .error e → after = before) ∧
      (result = .ok () → ExactlyOne (after = before)
        (∃ property schema, GainsColumn target property schema before after)
        (∃ property fields schema own,
          WritesKey target property fields schema own before after)) := by
  cases required : before.registry.foreignKey target owning column nullable with
  | error e =>
    have failed := Registry.ensureForeignKey_of_error before.store required
    simp only [addForeignKey, CompileM.runOn_bind, CompileM.runOn_get, failed,
      CompileM.runOn_throw, Prod.mk.injEq] at ran
    obtain ⟨rfl, rfl⟩ := ran
    simp
  | ok requirement =>
    obtain ⟨next, store, ensured⟩ := Registry.exists_ensureForeignKey before.store required
    have succeeded : (addForeignKey target owning column nullable).runOn before =
        (.ok (), { before with registry := next, store := store }) :=
      addForeignKey_eq_ok.mpr ⟨ensured, rfl⟩
    obtain ⟨rfl, rfl⟩ := Prod.mk.inj (succeeded.symm.trans ran)
    refine ⟨by simp, by simp, fun _ => exactlyOne_change ?_⟩
    obtain ⟨schema, own, source, registered, ownFound, -, ensures⟩ :=
      Registry.ensuresKey_of_ensureForeignKey ensured
    exact change_of_ensuresKey keyed registered ownFound ensures rfl

open Registry (staff person) in
/-- Persons get a key to employees in their entry. Nobody gets a key to an entity that is not
there. -/
theorem addForeignKey_atomic_staff : ∃ after,
    (addForeignKey "Person" "Employee" "id" none).runOn (start staff) = (.ok (), after) ∧
      (∃ property fields schema own, WritesKey "Person" property fields schema own (start staff)
        after) ∧
      (addForeignKey "Person" "Visitor" "id" none).runOn (start staff) =
        (.error (.malformedRelationship (.unregistered "Visitor")), start staff) := by
  have keyed : (start staff).registry.WellKeyed :=
    Registry.wellKeyed_of_entries (by decide) (by decide +kernel)
  let managed := staff.insert "Person" (wrap person (propertyFragment "employee_id" (.obj
    [("type", .str "integer"), ("x-foreign-key", .str "employee.id"),
      ("x-dict-ignore", .bool true)])))
  have ensured : staff.ensureForeignKey [] "Person" "Employee" "id" none = .ok (managed, []) := by
    cbv
  have added : (addForeignKey "Person" "Employee" "id" none).runOn (start staff) =
      (.ok (), ⟨managed, [], []⟩) := addForeignKey_eq_ok.mpr ⟨ensured, rfl⟩
  refine ⟨_, added, ?_, ?_⟩
  · obtain ⟨one | ⟨property, schema, gains⟩ | writes, -⟩ :=
      (addForeignKey_atomic keyed added).2.2 rfl
    · have same : some (wrap person _) = some person :=
        congrArg (fun state => state.registry.get? "Person") one
      simp [wrap, person] at same
    · exact absurd rfl gains.store_ne
    · exact writes
  · have refused : staff.foreignKey "Person" "Visitor" "id" none =
        .error (.malformedRelationship (.unregistered "Visitor")) := by cbv
    obtain ⟨result, after, ran⟩ : ∃ result after,
        (addForeignKey "Person" "Visitor" "id" none).runOn (start staff) = (result, after) :=
      ⟨_, _, rfl⟩
    obtain ⟨failed, unchanged, -⟩ := addForeignKey_atomic keyed ran
    rw [ran, (failed _).mpr refused, unchanged _ ((failed _).mpr refused)]

end Compilation

end EntityMapping
