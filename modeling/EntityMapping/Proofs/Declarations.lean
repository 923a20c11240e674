import EntityMapping.Proofs.Runs
import EntityMapping.Proofs.WrittenKeys

/-!
The properties that an entity declares in its own schema. A run writes key columns into the schemas
of entities, and may do so to any entity that another one is composed of; still no entity loses a
property that it declares, and no entity loses its table.
-/

set_option autoImplicit false
set_option relaxedAutoImplicit false

namespace EntityMapping

open Keyed (Distinct)
open ForeignKey (Source IsKeySchema)

/-- The fields of a keyword's value; none if it is absent or no object. -/
def fieldsIn (value : Option Json) : Keyed Json := (value.bind Json.fields?).getD []

/-- The properties of an entity that is not composed; none if they are no object. -/
def propertiesIn (own : Keyed Json) : Keyed Json :=
  ((Keyed.get? own "properties").bind Json.fields?).getD []

theorem get?_propertiesIn (own : Keyed Json) (property : String) :
    Keyed.get? (propertiesIn own) property =
      (Keyed.get? own "properties").bind (·.get? property) := by
  unfold propertiesIn
  cases Keyed.get? own "properties" with
  | none => rfl
  | some value =>
    rw [Option.bind_some, Option.bind_some, Json.get?]
    cases value.fields? <;> rfl

theorem Compilation.propertiesOf_eq_ok {own properties : Keyed Json}
    (found : propertiesOf own = .ok properties) : properties = propertiesIn own := by
  unfold propertiesOf at found
  unfold propertiesIn
  split at found
  · rename_i absent
    rw [absent, ← Except.ok.inj found]
    rfl
  · rename_i object written
    rw [written, ← Except.ok.inj found]
    rfl
  · cases found

/-- Nothing that is among the properties before is missing from them after. -/
inductive PropertiesGrow : Option Json → Option Json → Prop
  | absent : PropertiesGrow none none
  | appeared (new : Keyed Json) : PropertiesGrow none (some (.obj new))
  | malformed {value : Json} (other : Json) : value.fields? = none →
      PropertiesGrow (some value) (some other)
  | objects {old new : Keyed Json} : Keyed.keys old ⊆ Keyed.keys new →
      PropertiesGrow (some (.obj old)) (some (.obj new))

theorem subset_propertiesOver (new : Keyed Json) (before : Option Json) :
    Keyed.keys new ⊆ Keyed.keys (propertiesOver new before) := by
  unfold propertiesOver
  split
  · intro key member
    exact (Keyed.mem_keys_setAll _ _ _).mpr (.inr member)
  · exact List.Subset.refl _

namespace PropertiesGrow

variable {before before' value value' : Option Json}

theorem refl (value : Option Json) : PropertiesGrow value value := by
  cases value with
  | none => exact .absent
  | some value =>
    cases isFields : value.fields? with
    | none => exact .malformed value isFields
    | some fields =>
      obtain rfl : value = .obj fields := by cases value <;> simp_all [Json.fields?]
      exact .objects (List.Subset.refl _)

theorem laid (below : PropertiesGrow before before') (above : PropertiesGrow value value') :
    PropertiesGrow (laidValue "properties" before value)
      (laidValue "properties" before' value') := by
  cases above with
  | absent => exact below
  | appeared new =>
    rw [laidValue_properties_obj]
    cases below with
    | absent => exact .appeared _
    | appeared => exact .appeared _
    | malformed _ noObject => exact .malformed _ noObject
    | @objects old under grow =>
      refine .objects fun key member => ?_
      exact (Keyed.mem_keys_setAll under new key).mpr (.inl (grow member))
  | malformed other noObject =>
    rw [laidValue_properties_of_not_obj _ noObject]
    exact .malformed _ noObject
  | @objects old new grow =>
    rw [laidValue_properties_obj, laidValue_properties_obj]
    refine .objects ?_
    cases below with
    | absent => exact grow
    | appeared => exact List.Subset.trans grow (subset_propertiesOver _ _)
    | malformed _ noObject =>
      rw [propertiesOver_of_not_obj _ noObject]
      exact List.Subset.trans grow (subset_propertiesOver _ _)
    | @objects under under' growBelow =>
      intro key member
      rw [propertiesOver_obj, Keyed.mem_keys_setAll] at member ⊢
      exact member.imp (growBelow ·) (grow ·)

end PropertiesGrow

theorem PropertiesGrow.subset {before after : Option Json} (grow : PropertiesGrow before after) :
    Keyed.keys (fieldsIn before) ⊆ Keyed.keys (fieldsIn after) := by
  cases grow with
  | absent => exact List.Subset.refl _
  | appeared => exact List.nil_subset _
  | malformed _ noObject => simp [fieldsIn, noObject]
  | objects grow => exact grow

theorem subset_propertiesIn {own other : Keyed Json}
    (grow : PropertiesGrow (Keyed.get? own "properties") (Keyed.get? other "properties")) :
    Keyed.keys (propertiesIn own) ⊆ Keyed.keys (propertiesIn other) := grow.subset

namespace Registry

/-- The properties that an entity declares in its own schema; none if it has no such schema. -/
def declared (registry : Registry) (name : String) : Keyed Json :=
  match registry.registered name >>= registry.ownSchema name with
  | .ok own => propertiesIn own.fields
  | .error _ => []

/-- The schema that an entity amounts to names a table. -/
def HasTable (registry : Registry) (name tablename : String) : Prop :=
  ∃ schema flat, registry.get? name = some schema ∧ registry.flatten name schema = .ok flat ∧
    flat.keywords.tablename? = .ok (some tablename)

variable {registry : Registry} {name tablename : String} {schema : Json} {own : OwnSchema}

theorem declared_eq (entry : registry.get? name = some schema)
    (found : registry.ownSchema name schema = .ok own) :
    registry.declared name = propertiesIn own.fields := by
  rw [declared, registered_eq_ok.mpr entry, ok_bind, found]

theorem HasTable.unique {other : String} (one : registry.HasTable name tablename)
    (two : registry.HasTable name other) : tablename = other := by
  obtain ⟨schema, flat, entry, flattened, named⟩ := one
  obtain ⟨_, _, entry', flattened', named'⟩ := two
  obtain rfl := Option.some.inj (entry.symm.trans entry')
  obtain rfl := Except.ok.inj (flattened.symm.trans flattened')
  exact Option.some.inj (Except.ok.inj (named.symm.trans named'))

theorem distinct_propertiesIn {flat : Keyed Json} (whole : (Json.obj flat).isWellKeyed = true) :
    Distinct (propertiesIn flat) := by
  unfold propertiesIn
  cases written : Keyed.get? flat "properties" with
  | none => exact Keyed.distinct_nil
  | some value =>
    have object := Json.isWellKeyed_of_get? whole written
    cases value with
    | obj fields => exact ((Json.isWellKeyed_obj fields).mp object).1
    | _ => exact Keyed.distinct_nil

theorem WellKeyed.distinct_declared (keyed : registry.WellKeyed) (name : String) :
    Distinct (registry.declared name) := by
  unfold declared
  cases found : registry.registered name >>= registry.ownSchema name with
  | error e => exact Keyed.distinct_nil
  | ok own =>
    obtain ⟨schema, entry, ownFound⟩ := bind_eq_ok.mp found
    obtain ⟨-, flat, flattened, same⟩ := ownSchema_eq_ok.mp ownFound
    have whole := keyed.of_get? (registered_eq_ok.mp entry)
    exact distinct_propertiesIn (same ▸ keyed.of_derives (derives_of_flattenFrom flattened) whole)

/-- A property that is not found on an entity's own schema is not declared. -/
theorem not_declared_of_flatProperty? {property : String} (entry : registry.get? name = some schema)
    (found : registry.ownSchema name schema = .ok own) :
    registry.flatProperty? own.fields property = .ok none ↔
      property ∉ Keyed.keys (registry.declared name) := by
  rw [declared_eq entry found, ← Keyed.get?_eq_none_iff, get?_propertiesIn, flatProperty?]
  cases (Keyed.get? own.fields "properties").bind (·.get? property) with
  | none => simp
  | some schema => cases flattened : registry.flatten property schema <;> simp [flattened]

end Registry

namespace Rewriting

variable {rewriting : Rewriting} {skip : Option String} {top : Json} {added : Keyed Json}

theorem carries_propertiesGrow (whole : top.isWellKeyed = true)
    (written : Keyed.get? rewriting.fragment "properties" = some (.obj added)) :
    rewriting.Carries skip top "properties" PropertiesGrow where
  notFragments := by decide
  absent := .absent
  written own parts := ⟨rewriting.keyed.distinct whole parts, .refl _⟩
  laid below above := below.laid above
  added flat value _ _ grow := by
    rw [written]
    exact grow.laid (.appeared added)

/-- No entity loses a property that it declares. -/
theorem declared_changed (written : Keyed.get? rewriting.fragment "properties" = some (.obj added))
    (name : String) : Keyed.keys (rewriting.registry.declared name) ⊆
      Keyed.keys (rewriting.changed.declared name) := by
  have alike : Alike (fun own other => own.parent = other.parent ∧
      Related "properties" PropertiesGrow own.fields other.fields)
      (rewriting.registry.registered name >>= rewriting.registry.ownSchema name)
      (rewriting.changed.registered name >>= rewriting.changed.ownSchema name) := by
    refine (registered_alike name).bind_of_eq fun schema after entry rewritten => ?_
    have whole := rewriting.keyed.of_get? (Registry.registered_eq_ok.mp entry)
    exact ownSchema_alike (fun skip => carries_propertiesGrow whole written) whole rewritten
  unfold Registry.declared
  generalize rewriting.registry.registered name >>= rewriting.registry.ownSchema name = before
    at alike ⊢
  generalize rewriting.changed.registered name >>= rewriting.changed.ownSchema name = after
    at alike ⊢
  cases alike with
  | ok same => exact subset_propertiesIn same.2.2.2
  | error e => exact List.Subset.refl _

/-- No entity loses its table. -/
theorem hasTable_changed {name tablename : String}
    (named : rewriting.registry.HasTable name tablename) :
    rewriting.changed.HasTable name tablename := by
  obtain ⟨schema, flat, entry, flattened, named⟩ := named
  have whole := rewriting.keyed.of_get? entry
  obtain ⟨after, other, entryToo, -, flattenedToo, -, -, same⟩ :=
    flatten_alike entry (carries_of_silent rewriting.noTable (by decide) whole) flattened
  have sameWord : flat.keywords.tablename? = other.keywords.tablename? :=
    KeywordReader.as_congr same
  exact ⟨after, other, entryToo, flattenedToo, sameWord ▸ named⟩

end Rewriting

namespace Compilation

variable {names : List String} {before after : Compilation} {name : String}

/-- What a step does to the registry: nothing, or it writes a key column into it. -/
theorem Step.registry_changed (step : Step names before after)
    (keyed : before.registry.WellKeyed) : after.registry = before.registry ∨
      ∃ rewriting : Rewriting, rewriting.registry = before.registry ∧
        rewriting.changed = after.registry ∧
        ∃ added, Keyed.get? rewriting.fragment "properties" = some (.obj added) := by
  cases step with
  | table => exact .inl rfl
  | model => exact .inl rfl
  | key ensured =>
    obtain ⟨schema, own, source, entry, -, -, change⟩ :=
      Registry.ensuresKey_of_ensureForeignKey ensured
    cases change with
    | satisfied => exact .inl rfl
    | taken => exact .inl rfl
    | attached => exact .inl rfl
    | written missing isKey =>
      exact .inr ⟨Rewriting.ofKey _ keyed entry isKey, rfl, rfl, _, rfl⟩

theorem Steps.keyed (steps : Steps names before after) (keyed : before.registry.WellKeyed) :
    after.registry.WellKeyed := by
  induction steps with
  | refl => exact keyed
  | tail _ step ih =>
    rcases step.registry_changed ih with same | ⟨rewriting, -, changed, -⟩
    · exact same ▸ ih
    · exact changed ▸ rewriting.keyed_changed

/-- What holds of a registry, and still does when a key column has been written into it, holds
throughout a run. -/
@[elab_as_elim]
theorem Steps.registry_induction {motive : Registry → Prop} (steps : Steps names before after)
    (keyed : before.registry.WellKeyed) (start : motive before.registry)
    (write : ∀ rewriting : Rewriting,
      (∃ added, Keyed.get? rewriting.fragment "properties" = some (.obj added)) →
      motive rewriting.registry → motive rewriting.changed) : motive after.registry := by
  induction steps with
  | refl => exact start
  | tail earlier step ih =>
    rcases step.registry_changed (Steps.keyed earlier keyed) with same | ⟨rewriting, sameBefore,
      changed, written⟩
    · exact same ▸ ih
    · exact changed ▸ write rewriting written (sameBefore ▸ ih)

/-- No entity loses a property that it declares in the course of a run. -/
theorem Steps.declared (steps : Steps names before after) (keyed : before.registry.WellKeyed)
    (name : String) : Keyed.keys (before.registry.declared name) ⊆
      Keyed.keys (after.registry.declared name) := by
  refine steps.registry_induction keyed (List.Subset.refl _) fun rewriting written kept => ?_
  obtain ⟨added, written⟩ := written
  exact List.Subset.trans kept (rewriting.declared_changed written name)

/-- No entity loses its table in the course of a run. -/
theorem Steps.hasTable (steps : Steps names before after) (keyed : before.registry.WellKeyed)
    {tablename : String} (named : before.registry.HasTable name tablename) :
    after.registry.HasTable name tablename :=
  steps.registry_induction keyed named fun rewriting _ stillNamed =>
    rewriting.hasTable_changed stillNamed

end Compilation

end EntityMapping
