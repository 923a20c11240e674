import EntityMapping.Proofs.Declarations
import EntityMapping.Proofs.LocalReferences
import EntityMapping.Proofs.Rewriting
import EntityMapping.Proofs.Runs

/-!
Registries that back references are added to. What a relationship implies on another entity is a
reference or a list of them, so a registry of values with pairwise different keys stays one.
-/

set_option autoImplicit false
set_option relaxedAutoImplicit false

namespace EntityMapping

open Keyed (Distinct)
open Registry (wrap backrefFragment)

theorem Json.isWellKeyed_of_sublist {fields kept : Keyed Json} (sublist : kept.Sublist fields)
    (object : (Json.obj fields).isWellKeyed = true) : (Json.obj kept).isWellKeyed = true := by
  obtain ⟨distinct, values⟩ := (isWellKeyed_obj fields).mp object
  refine (isWellKeyed_obj kept).mpr ⟨?_, fun field member => values field (sublist.subset member)⟩
  exact List.Nodup.sublist (List.Sublist.map _ sublist) distinct

theorem Relationship.isWellKeyed_reverseSchema (relationship : Relationship) (owner : String) :
    (relationship.reverseSchema owner).isWellKeyed = true := by
  have reference : (Json.obj (referenceSchema owner)).isWellKeyed = true :=
    (Json.isWellKeyed_obj _).mpr
      ⟨by simp [referenceSchema, Distinct], by simp [referenceSchema, Json.isWellKeyed_str]⟩
  have list : (Json.obj (listSchema owner)).isWellKeyed = true :=
    (Json.isWellKeyed_obj _).mpr
      ⟨by simp [listSchema, Distinct], by simp [listSchema, Json.isWellKeyed_str, reference]⟩
  have either : ∀ isList : Bool,
      (Json.obj (if isList then listSchema owner else referenceSchema owner)).isWellKeyed =
        true := by
    intro isList
    cases isList
    · exact reference
    · exact list
  exact either _

namespace BackrefGroups

/-- The implied properties of every entity have pairwise different names, and so on. -/
def WellKeyed (groups : BackrefGroups) : Prop :=
  ∀ group ∈ groups, (Json.obj group.2).isWellKeyed = true

theorem WellKeyed.add {groups next : BackrefGroups} {entry : ReverseProperty}
    (keyed : groups.WellKeyed) (whole : entry.schema.isWellKeyed = true)
    (added : groups.add entry = .ok next) : next.WellKeyed := by
  have group : (Json.obj ((Keyed.get? groups entry.model).getD [])).isWellKeyed = true := by
    cases found : Keyed.get? groups entry.model with
    | none => rfl
    | some group => exact keyed _ (Keyed.mem_of_get? found)
  unfold BackrefGroups.add at added
  dsimp only at added
  split at added
  · obtain rfl := Except.ok.inj added
    intro other member
    rcases Keyed.mem_of_mem_set member with rfl | before
    · exact Json.isWellKeyed_set group _ whole
    · exact keyed other before
  · split at added
    · exact Except.ok.inj added ▸ keyed
    · cases added

end BackrefGroups

namespace Registry

variable {registry next : Registry}

/-- What properties imply comes from relationships with a back reference. -/
theorem mem_reversesOf {owner : String} {properties : Keyed Json} {entries : List ReverseProperty}
    (found : registry.reversesOf owner properties = .ok entries) :
    ∀ entry ∈ entries, ∃ property ∈ properties, ∃ relationship backref,
      registry.gather? property.1 property.2 = .ok (some relationship) ∧
        relationship.backref = some backref ∧
        entry = ⟨relationship.modelName, backref.name, relationship.reverseSchema owner⟩ := by
  induction properties generalizing entries with
  | nil =>
    obtain rfl := Except.ok.inj found
    simp
  | cons field rest ih =>
    obtain ⟨first, foundFirst, found⟩ := bind_eq_ok.mp found
    obtain ⟨others, foundOthers, found⟩ := bind_eq_ok.mp found
    obtain rfl := Except.ok.inj found
    intro entry member
    rcases List.mem_append.mp member with here | later
    · obtain ⟨relationship, gathered, foundFirst⟩ := bind_eq_ok.mp foundFirst
      cases relationship with
      | none =>
        obtain rfl := Except.ok.inj foundFirst
        simp at here
      | some relationship =>
        obtain rfl := Except.ok.inj foundFirst
        obtain ⟨backref, named, rfl⟩ := Option.map_eq_some_iff.mp (Option.mem_toList.mp here)
        exact ⟨field, List.mem_cons_self, relationship, backref, inContext_eq_ok.mp gathered, named,
          rfl⟩
    · obtain ⟨property, inRest, rest⟩ := ih foundOthers entry later
      exact ⟨property, List.mem_cons_of_mem _ inRest, rest⟩

theorem entityBackrefs_eq (registry : Registry) (name : String) (schema : Json) :
    registry.entityBackrefs name schema =
      registry.ownSchema name schema >>= fun own =>
        own.keywords.tablename? >>= fun tablename =>
          if tablename.isNone then .ok [] else registry.reversesOf name (propertiesIn own.fields) := by
  unfold entityBackrefs
  refine bind_congr fun own => bind_congr fun tablename => ?_
  split
  · rfl
  unfold propertiesIn
  split
  · rename_i written
    rw [written]
    rfl
  · rename_i notObject
    cases written : Keyed.get? own.fields "properties" with
    | none => rfl
    | some value =>
      cases value with
      | obj fields => exact absurd written (notObject fields)
      | _ => rfl

/-- What an entity implies comes from its own relationships. -/
theorem mem_entityBackrefs {name : String} {schema : Json} {entries : List ReverseProperty}
    (found : registry.entityBackrefs name schema = .ok entries) :
    ∀ entry ∈ entries, ∃ own, registry.ownSchema name schema = .ok own ∧
      ∃ property ∈ propertiesIn own.fields, ∃ relationship backref,
        registry.gather? property.1 property.2 = .ok (some relationship) ∧
          relationship.backref = some backref ∧
          entry = ⟨relationship.modelName, backref.name, relationship.reverseSchema name⟩ := by
  rw [entityBackrefs_eq] at found
  obtain ⟨own, isOwn, found⟩ := bind_eq_ok.mp found
  obtain ⟨tablename, -, found⟩ := bind_eq_ok.mp found
  intro entry member
  split at found
  · obtain rfl := Except.ok.inj found
    simp at member
  · exact ⟨own, isOwn, mem_reversesOf found entry member⟩

theorem isWellKeyed_of_entityBackrefs {name : String} {schema : Json}
    {entries : List ReverseProperty} (found : registry.entityBackrefs name schema = .ok entries) :
    ∀ entry ∈ entries, entry.schema.isWellKeyed = true := by
  intro entry member
  obtain ⟨_, -, _, -, relationship, backref, -, -, rfl⟩ := mem_entityBackrefs found entry member
  exact relationship.isWellKeyed_reverseSchema name

theorem wellKeyed_backrefGroups {groups : BackrefGroups}
    (found : registry.backrefGroups = .ok groups) : groups.WellKeyed := by
  refine foldlM_eq_ok_induction ?_ (by simp [BackrefGroups.WellKeyed]) found
  intro groups next entry _ keyed added
  obtain ⟨entries, implied, folded⟩ := bind_eq_ok.mp added
  have whole := isWellKeyed_of_entityBackrefs implied
  exact foldlM_eq_ok_induction
    (fun _ _ entry member keyed added => keyed.add (whole entry member) added) keyed folded

theorem sublist_of_missingBackrefs {model : String} {existing group missing : Keyed Json}
    (found : missingBackrefs model existing group = .ok missing) : missing.Sublist group := by
  induction group generalizing missing with
  | nil => exact Except.ok.inj found ▸ .refl _
  | cons field rest ih =>
    obtain ⟨property, reverse⟩ := field
    unfold missingBackrefs at found
    split at found
    · split at found
      · exact (ih found).cons _
      · cases found
    · obtain ⟨others, foundOthers, found⟩ := bind_eq_ok.mp found
      exact Except.ok.inj found ▸ (ih foundOthers).cons_cons _

/-- Adding back references changes nothing, or lays a fragment over an entity. -/
theorem rewriting_of_addBackrefs {group : String × Keyed Json} (keyed : registry.WellKeyed)
    (whole : (Json.obj group.2).isWellKeyed = true)
    (added : registry.addBackrefs group = .ok next) : next = registry ∨
      ∃ rewriting : Rewriting, rewriting.registry = registry ∧ rewriting.changed = next := by
  obtain ⟨model, backrefs⟩ := group
  cases entry : registry.get? model with
  | none => simp [Registry.addBackrefs, entry] at added
  | some schema =>
  simp only [Registry.addBackrefs, entry, pure_eq_ok, ok_bind] at added
  obtain ⟨flat, -, added⟩ := bind_eq_ok.mp added
  obtain ⟨missing, found, added⟩ := bind_eq_ok.mp added
  split at added
  · exact .inl (Except.ok.inj added).symm
  · rw [replace, if_pos (contains_of_get? entry)] at added
    have implied := Json.isWellKeyed_of_sublist (sublist_of_missingBackrefs found) whole
    have fragment : (Json.obj (backrefFragment missing)).isWellKeyed = true :=
      (Json.isWellKeyed_obj _).mpr ⟨by simp [backrefFragment, Distinct],
        by simp [backrefFragment, Json.isWellKeyed_str, implied]⟩
    exact .inr ⟨⟨registry, model, schema, backrefFragment missing, keyed, entry,
      isFragment_backrefFragment missing, fragment, rfl, rfl⟩, rfl, Except.ok.inj added⟩

theorem WellKeyed.addBackrefs {group : String × Keyed Json} (keyed : registry.WellKeyed)
    (whole : (Json.obj group.2).isWellKeyed = true)
    (added : registry.addBackrefs group = .ok next) : next.WellKeyed := by
  rcases rewriting_of_addBackrefs keyed whole added with rfl | ⟨rewriting, rfl, rfl⟩
  · exact keyed
  · exact rewriting.keyed_changed

theorem WellKeyed.addGroups {groups : BackrefGroups} (keyed : registry.WellKeyed)
    (whole : groups.WellKeyed) : (registry.addGroups groups).1.WellKeyed := by
  induction groups generalizing registry with
  | nil => exact keyed
  | cons group rest ih =>
    unfold Registry.addGroups
    cases added : registry.addBackrefs group with
    | error e => exact keyed
    | ok next =>
      have keyedNext := keyed.addBackrefs (whole group List.mem_cons_self) added
      exact ih keyedNext fun other member => whole other (List.mem_cons_of_mem _ member)

theorem WellKeyed.addAllBackrefs (keyed : registry.WellKeyed) :
    registry.addAllBackrefs.1.WellKeyed := by
  unfold Registry.addAllBackrefs
  cases found : registry.backrefGroups with
  | error e => exact keyed
  | ok groups => exact keyed.addGroups (wellKeyed_backrefGroups found)

end Registry

theorem Compilation.wellKeyed_placed {registry : Registry} (keyed : registry.WellKeyed)
    (config : Config) : (placed config registry).WellKeyed where
  entries := placed_entries config registry ▸ keyed.entries
  schemas := placed_entries config registry ▸ keyed.schemas
  documents := placed_documents config registry ▸ keyed.documents

theorem Compilation.refersLocally_placed {registry : Registry}
    (references : registry.RefersLocally) (config : Config) :
    (placed config registry).RefersLocally := by
  rw [Registry.RefersLocally, placed_entries]
  exact references

/-- A registry stays well keyed when it is prepared. -/
theorem Registry.WellKeyed.prepared {registry : Registry} (keyed : registry.WellKeyed)
    (config : Config) : (Compilation.prepared config registry).2.registry.WellKeyed := by
  have keyedPlaced := Compilation.wellKeyed_placed keyed config
  rw [Compilation.prepared_eq]
  split
  · exact keyedPlaced.addAllBackrefs
  · exact keyedPlaced

end EntityMapping
