import EntityMapping.Proofs.Declarations
import EntityMapping.Proofs.PreparedRegistries

/-!
Parents and tables of entities in the course of a run. Back references and key columns are laid over
the schemas of entities in fragments that say nothing about tables and parents, so every entity keeps
its parent, the table of its own schema, and the table that it amounts to.
-/

set_option autoImplicit false
set_option relaxedAutoImplicit false

namespace EntityMapping

open Keyed (Distinct)
open Registry (wrap backrefFragment)

namespace Registry

variable {registry base middle now next : Registry} {name tablename : String}

/-- The schema of an entity without what it inherits names a table. -/
def OwnsTable (registry : Registry) (name : String) : Prop :=
  ∃ schema own tablename, registry.get? name = some schema ∧
    registry.ownSchema name schema = .ok own ∧ own.keywords.tablename? = .ok (some tablename)

/-- The table that the schema of an entity without what it inherits names, if it names one. -/
def ownTablename (registry : Registry) (name : String) : Except SchemaError (Option String) := do
  let own ← registry.ownSchema name (← registry.registered name)
  own.keywords.tablename?

theorem ownTablename_eq_ok {found : Option String} : registry.ownTablename name = .ok found ↔
    ∃ schema own, registry.get? name = some schema ∧ registry.ownSchema name schema = .ok own ∧
      own.keywords.tablename? = .ok found := by
  simp only [ownTablename, bind_eq_ok, registered_eq_ok]
  constructor
  · rintro ⟨schema, entry, own, found, named⟩
    exact ⟨schema, own, entry, found, named⟩
  · rintro ⟨schema, own, entry, found, named⟩
    exact ⟨schema, entry, own, found, named⟩

theorem ownsTable_iff :
    registry.OwnsTable name ↔ ∃ tablename, registry.ownTablename name = .ok (some tablename) := by
  simp only [OwnsTable, ownTablename_eq_ok]
  constructor
  · rintro ⟨schema, own, tablename, owned⟩
    exact ⟨tablename, schema, own, owned⟩
  · rintro ⟨tablename, schema, own, owned⟩
    exact ⟨schema, own, tablename, owned⟩

theorem hasTable_iff : registry.HasTable name tablename ↔
    ∃ flat, (registry.registered name >>= registry.flatten name) = .ok flat ∧
      flat.keywords.tablename? = .ok (some tablename) := by
  simp only [HasTable, bind_eq_ok, registered_eq_ok]
  constructor
  · rintro ⟨schema, flat, entry, flattened, named⟩
    exact ⟨flat, ⟨schema, entry, flattened⟩, named⟩
  · rintro ⟨flat, ⟨schema, entry, flattened⟩, named⟩
    exact ⟨schema, flat, entry, flattened, named⟩

/-- The same entities, with the same parents and tables. -/
structure KeepsTables (base now : Registry) : Prop where
  names : now.names = base.names
  parent : ∀ name, (now.registered name >>= now.parent? name) =
    (base.registered name >>= base.parent? name)
  ownTablename : ∀ name, now.ownTablename name = base.ownTablename name
  table : ∀ name tablename, now.HasTable name tablename ↔ base.HasTable name tablename

theorem KeepsTables.refl (base : Registry) : base.KeepsTables base :=
  ⟨rfl, fun _ => rfl, fun _ => rfl, fun _ _ => .rfl⟩

theorem KeepsTables.trans (one : base.KeepsTables middle) (two : middle.KeepsTables now) :
    base.KeepsTables now where
  names := two.names.trans one.names
  parent name := (two.parent name).trans (one.parent name)
  ownTablename name := (two.ownTablename name).trans (one.ownTablename name)
  table name tablename := (two.table name tablename).trans (one.table name tablename)

theorem KeepsTables.owns (kept : base.KeepsTables now) (name : String) :
    now.OwnsTable name ↔ base.OwnsTable name := by
  rw [ownsTable_iff, ownsTable_iff, kept.ownTablename]

end Registry

theorem Alike.exists_iff {α β : Type} {related : α → β → Prop} {x : Except SchemaError α}
    {y : Except SchemaError β} {holds : α → Prop} {holdsToo : β → Prop} (alike : Alike related x y)
    (same : ∀ a b, related a b → (holds a ↔ holdsToo b)) :
    (∃ a, x = .ok a ∧ holds a) ↔ ∃ b, y = .ok b ∧ holdsToo b := by
  cases alike with
  | ok values => simpa using same _ _ values
  | error e => simp

namespace Rewriting

variable (rewriting : Rewriting)

/-- A fragment laid over an entity changes no parent and no table. -/
theorem keepsTables : rewriting.registry.KeepsTables rewriting.changed where
  names := Keyed.keys_set_of_contains _ _ (Registry.contains_of_get? rewriting.registered)
  parent name := by
    refine (Alike.eq ?_).symm
    refine (registered_alike name).bind_of_eq fun schema after entry rewritten => ?_
    rw [parent?_changed (rewriting.keyed.of_get? (Registry.registered_eq_ok.mp entry)) rewritten]
    exact .refl _
  ownTablename name := by
    refine (Alike.eq ?_).symm
    refine (registered_alike name).bind_of_eq fun schema after entry rewritten => ?_
    have whole := rewriting.keyed.of_get? (Registry.registered_eq_ok.mp entry)
    have owns : Alike (fun own other => own.parent = other.parent ∧
          Related "x-tablename" (· = ·) own.fields other.fields)
        (rewriting.registry.ownSchema name schema) (rewriting.changed.ownSchema name after) :=
      ownSchema_alike (fun skip => carries_of_silent rewriting.noTable (by decide) whole) whole
        rewritten
    refine owns.bind fun own other same => ?_
    have sameWord : own.keywords.tablename? = other.keywords.tablename? :=
      KeywordReader.as_congr same.2.2.2
    rw [sameWord]
    exact .refl _
  table name tablename := by
    have alike : Alike (fun flat other => Related "x-tablename" (· = ·) flat.fields other.fields)
        (rewriting.registry.registered name >>= rewriting.registry.flatten name)
        (rewriting.changed.registered name >>= rewriting.changed.flatten name) := by
      refine (registered_alike name).bind_of_eq fun schema after entry rewritten => ?_
      have whole := rewriting.keyed.of_get? (Registry.registered_eq_ok.mp entry)
      exact (carries_of_silent rewriting.noTable (by decide) whole).flattenWithout rewritten
    rw [Registry.hasTable_iff, Registry.hasTable_iff]
    refine (alike.exists_iff fun flat other same => ?_).symm
    have sameWord : flat.keywords.tablename? = other.keywords.tablename? :=
      KeywordReader.as_congr same.2.2
    rw [sameWord]

end Rewriting

namespace Registry

variable {registry base next : Registry} {groups : BackrefGroups}

theorem KeepsTables.of_addGroups (keyed : registry.WellKeyed) (whole : groups.WellKeyed) :
    registry.KeepsTables (registry.addGroups groups).1 := by
  induction groups generalizing registry with
  | nil => exact .refl registry
  | cons group rest ih =>
    unfold addGroups
    cases added : registry.addBackrefs group with
    | error e => exact .refl registry
    | ok next =>
      have here := whole group List.mem_cons_self
      have kept : registry.KeepsTables next := by
        rcases rewriting_of_addBackrefs keyed here added with rfl | ⟨rewriting, rfl, rfl⟩
        · exact .refl next
        · exact rewriting.keepsTables
      exact kept.trans (ih (keyed.addBackrefs here added)
        fun other member => whole other (List.mem_cons_of_mem _ member))

/-- Adding back references changes no parent and no table, also where it fails. -/
theorem keepsTables_addAllBackrefs (keyed : registry.WellKeyed) :
    registry.KeepsTables registry.addAllBackrefs.1 := by
  unfold addAllBackrefs
  cases found : registry.backrefGroups with
  | error e => exact .refl registry
  | ok groups => exact .of_addGroups keyed (wellKeyed_backrefGroups found)

end Registry

namespace Compilation

variable {names : List String} {before after : Compilation}

theorem keepsTables_prepared {registry : Registry} (keyed : registry.WellKeyed) (config : Config) :
    (placed config registry).KeepsTables (prepared config registry).2.registry := by
  rw [prepared_eq]
  split
  · exact Registry.keepsTables_addAllBackrefs (wellKeyed_placed keyed config)
  · exact .refl _

/-- No parent and no table changes in the course of a run. -/
theorem Steps.keepsTables (steps : Steps names before after) (keyed : before.registry.WellKeyed) :
    before.registry.KeepsTables after.registry :=
  steps.registry_induction keyed (.refl _) fun rewriting _ kept => kept.trans rewriting.keepsTables

end Compilation

end EntityMapping
