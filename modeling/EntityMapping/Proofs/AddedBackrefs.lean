import EntityMapping.Proofs.ImpliedBackrefs
import EntityMapping.Proofs.JoinedFields

/-!
Adding back references, group by group. Every entity that a group is for has one turn: its schema
is flattened with what the turns before have added to other entities, what is there must agree with
the group, and what is not there is added.
-/

set_option autoImplicit false
set_option relaxedAutoImplicit false

namespace EntityMapping

open Keyed (Distinct)
open Registry (wrap backrefFragment)

namespace Additions

/-- Back references that an entity lacks, as additions. -/
def ofMissing : Keyed Json → Additions
  | [] => nothing
  | pair :: rest => ofBackrefs (some (pair :: rest)) (by simp)

theorem keys_ofMissing (missing : Keyed Json) : (ofMissing missing).keys = [] := by
  cases missing <;> rfl

/-- Back references as the value of their keyword, if there are any. -/
def backrefsValue (missing : Keyed Json) : Option Json :=
  if missing.isEmpty then none else some (.obj missing)

theorem valueOver_ofMissing (missing : Keyed Json) (value : Option Json) :
    (ofMissing missing).valueOver "x-backrefs" value =
      laidValue "x-backrefs" value (backrefsValue missing) := by
  cases missing <;> rfl

theorem fieldsIn_backrefsValue (missing : Keyed Json) :
    fieldsIn (backrefsValue missing) = missing := by
  cases missing <;> rfl

theorem isFields_backrefsValue {missing : Keyed Json} (distinct : Distinct missing) :
    IsFields (backrefsValue missing) := by
  cases missing with
  | nil => exact isFields_none
  | cons pair rest => exact isFields_obj distinct

end Additions

/-- The back references that a flat schema has. -/
def backrefsIn (flat : Keyed Json) : Keyed Json := fieldsIn (Keyed.get? flat "x-backrefs")

/-- What is there under the keys of a group agrees with it. -/
def Agrees (existing group : Keyed Json) : Prop :=
  ∀ field ∈ group, ∀ current, Keyed.get? existing field.1 = some current →
    (current == field.2) = true

/-- The pairs of a group under keys that are not there. -/
def lacking (existing group : Keyed Json) : Keyed Json :=
  group.filter fun field => !Keyed.contains existing field.1

theorem lacking_sublist (existing group : Keyed Json) : (lacking existing group).Sublist group :=
  List.filter_sublist

theorem mem_lacking {existing group : Keyed Json} {field : String × Json} :
    field ∈ lacking existing group ↔ field ∈ group ∧ Keyed.get? existing field.1 = none := by
  simp [lacking, Keyed.contains]

theorem get?_lacking (existing group : Keyed Json) (key : String) :
    Keyed.get? (lacking existing group) key =
      if (Keyed.get? existing key).isNone then Keyed.get? group key else none := by
  unfold lacking
  induction group with
  | nil => simp
  | cons field rest ih =>
    obtain ⟨property, reverse⟩ := field
    rw [List.filter_cons]
    cases found : Keyed.get? existing property <;>
      by_cases same : property = key <;>
        simp_all [Keyed.contains, Keyed.get?_cons]

theorem distinct_lacking {group : Keyed Json} (distinct : Distinct group) (existing : Keyed Json) :
    Distinct (lacking existing group) :=
  List.Nodup.sublist ((lacking_sublist existing group).map _) distinct

namespace Registry

variable {registry next base : Registry} {model : String} {schema : Json}
  {existing group missing : Keyed Json} {additions earlier : String → Additions}

theorem missingBackrefs_eq_ok_iff : missingBackrefs model existing group = .ok missing ↔
    Agrees existing group ∧ missing = lacking existing group := by
  induction group generalizing missing with
  | nil =>
    simp only [missingBackrefs, Except.ok.injEq, Agrees, lacking, List.filter_nil]
    exact ⟨fun same => ⟨by simp, same.symm⟩, fun both => both.2.symm⟩
  | cons field rest ih =>
    obtain ⟨property, reverse⟩ := field
    have rest_agrees : Agrees existing ((property, reverse) :: rest) ↔
        (∀ current, Keyed.get? existing property = some current →
          (current == reverse) = true) ∧ Agrees existing rest := by
      simp [Agrees]
    rw [rest_agrees]
    unfold missingBackrefs lacking
    cases found : Keyed.get? existing property with
    | some current =>
      have present : Keyed.contains existing property = true := by simp [Keyed.contains, found]
      by_cases same : (current == reverse) = true
      · simpa [present, same, lacking] using ih
      · simp [same]
    | none =>
      have absent : Keyed.contains existing property = false := by simp [Keyed.contains, found]
      simp only [bind_eq_ok, ih, pure_eq_ok, Except.ok.injEq, reduceCtorEq, false_imp_iff,
        implies_true, true_and, List.filter_cons, absent, Bool.not_false, if_true]
      constructor
      · rintro ⟨others, ⟨agrees, rfl⟩, rfl⟩
        exact ⟨agrees, rfl⟩
      · rintro ⟨agrees, rfl⟩
        exact ⟨_, ⟨agrees, rfl⟩, rfl⟩

/-- How the back references of a group are added to an entity. -/
theorem addBackrefs_eq_ok_iff (registered : registry.get? model = some schema) :
    registry.addBackrefs (model, group) = .ok next ↔
      ∃ flat, registry.flatten model schema = .ok flat ∧ Agrees (backrefsIn flat.fields) group ∧
        next = registry.insert model
          ((Additions.ofMissing (lacking (backrefsIn flat.fields) group)).apply schema) := by
  have inserted : ∀ missing : Keyed Json,
      (if missing.isEmpty then .ok registry
        else registry.replace model (wrap schema (backrefFragment missing)) :
          Except SchemaError Registry) =
        .ok (registry.insert model ((Additions.ofMissing missing).apply schema)) := by
    intro missing
    cases missing with
    | nil =>
      have same : registry.insert model schema = registry := by
        rw [Registry.insert, Keyed.set_of_get? registered]
      exact congrArg Except.ok same.symm
    | cons pair rest =>
      rw [replace, if_pos (contains_of_get? registered)]
      rfl
  simp only [addBackrefs, registered, pure_eq_ok, ok_bind, bind_eq_ok]
  constructor
  · rintro ⟨flat, flattened, missing, found, added⟩
    obtain ⟨agrees, rfl⟩ := missingBackrefs_eq_ok_iff.mp found
    exact ⟨flat, flattened, agrees, (Except.ok.inj ((inserted _).symm.trans added)).symm⟩
  · rintro ⟨flat, flattened, agrees, rfl⟩
    exact ⟨flat, flattened, _, missingBackrefs_eq_ok_iff.mpr ⟨agrees, rfl⟩, inserted _⟩

/-- The turn of an entity while groups are added: the registry then, in which some of the additions
are made and none to this entity, and what the entity lacks. -/
structure Turn (base : Registry) (additions : String → Additions) (model : String)
    (group : Keyed Json) where
  earlier : String → Additions
  registry : Registry
  schema : Json
  flat : FlatSchema
  dresses : base.Dresses earlier registry
  before : ∀ name, earlier name = .nothing ∨ earlier name = additions name
  registered : base.get? model = some schema
  flattened : registry.flatten model schema = .ok flat
  agrees : Agrees (backrefsIn flat.fields) group
  added : additions model = .ofMissing (lacking (backrefsIn flat.fields) group)

/-- The entities of some groups are registered, and none is a mere reference. -/
def TargetsFit (base : Registry) (groups : BackrefGroups) : Prop :=
  ∀ model ∈ Keyed.keys groups, ∃ schema, base.get? model = some schema ∧ schema.get? "$ref" = none

/-- Groups that are added all have their turns. -/
theorem turns_of_addGroups {groups : BackrefGroups} (dresses : base.Dresses earlier registry)
    (distinct : Distinct groups) (targets : base.TargetsFit groups)
    (untouched : ∀ model ∈ Keyed.keys groups, earlier model = .nothing)
    (added : registry.addGroups groups = (next, .ok ())) :
    ∃ additions, base.Dresses additions next ∧
      (∀ name, name ∉ Keyed.keys groups → additions name = earlier name) ∧
      ∀ model group, (model, group) ∈ groups → Nonempty (base.Turn additions model group) := by
  induction groups generalizing registry earlier with
  | nil =>
    obtain ⟨rfl, -⟩ := Prod.mk.inj added
    exact ⟨earlier, dresses, fun _ _ => rfl, by simp⟩
  | cons first rest ih =>
    obtain ⟨model, group⟩ := first
    obtain ⟨once, distinctRest⟩ := (Keyed.distinct_cons _ _).mp distinct
    obtain ⟨schema, registered, noReference⟩ := targets model List.mem_cons_self
    have notYet := untouched model List.mem_cons_self
    have entry : registry.get? model = some schema := by
      rw [dresses.get?, registered, notYet]
      rfl
    unfold addGroups at added
    split at added
    · rename_i middle here
      obtain ⟨flat, flattened, agrees, rfl⟩ := (addBackrefs_eq_ok_iff entry).mp here
      have dressesMiddle := dresses.insert registered noReference
        (.ofMissing (lacking (backrefsIn flat.fields) group))
      have notRest : ∀ name ∈ Keyed.keys rest, name ≠ model := fun name member same =>
        once (same ▸ member)
      obtain ⟨additions, dressesNext, outside, turns⟩ := ih dressesMiddle distinctRest
        (fun name member => targets name (List.mem_cons_of_mem _ member))
        (fun name member => by
          rw [if_neg (notRest name member)]
          exact untouched name (List.mem_cons_of_mem _ member)) added
      have here := outside model once
      rw [if_pos rfl] at here
      refine ⟨additions, dressesNext, fun name notMember => ?_, fun name others member => ?_⟩
      · simp only [Keyed.keys_cons, List.mem_cons, not_or] at notMember
        rw [outside name notMember.2, if_neg notMember.1]
      · rcases List.mem_cons.mp member with same | later
        · obtain ⟨rfl, rfl⟩ := Prod.mk.inj same
          refine ⟨⟨earlier, registry, schema, flat, dresses, fun other => ?_, registered, flattened,
            agrees, here⟩⟩
          by_cases inGroups : other ∈ Keyed.keys ((name, others) :: rest)
          · exact .inl (untouched other inGroups)
          · simp only [Keyed.keys_cons, List.mem_cons, not_or] at inGroups
            rw [outside other inGroups.2, if_neg inGroups.1]
            exact .inr rfl
        · exact turns name others later
    · cases (Prod.mk.inj added).2

/-- Groups can be added if every entity agrees with its group whatever has been added before. -/
theorem exists_addGroups {groups all : BackrefGroups} (dresses : base.Dresses earlier registry)
    (subset : groups ⊆ all) (distinct : Distinct groups) (targets : base.TargetsFit groups)
    (untouched : ∀ model ∈ Keyed.keys groups, earlier model = .nothing)
    (sofar : ∀ name, earlier name = .nothing ∨ ∃ group missing, (name, group) ∈ all ∧
      earlier name = .ofMissing missing ∧ missing.Sublist group)
    (ready : ∀ model group schema earlier registry, (model, group) ∈ all →
      base.get? model = some schema → base.Dresses earlier registry →
      (∀ name, earlier name = .nothing ∨ ∃ group missing, (name, group) ∈ all ∧
        earlier name = .ofMissing missing ∧ missing.Sublist group) →
      ∃ flat, registry.flatten model schema = .ok flat ∧ Agrees (backrefsIn flat.fields) group) :
    ∃ next, registry.addGroups groups = (next, .ok ()) := by
  induction groups generalizing registry earlier with
  | nil => exact ⟨registry, rfl⟩
  | cons first rest ih =>
    obtain ⟨model, group⟩ := first
    obtain ⟨isFirst, inRest⟩ := List.cons_subset.mp subset
    obtain ⟨once, distinctRest⟩ := (Keyed.distinct_cons _ _).mp distinct
    obtain ⟨schema, registered, noReference⟩ := targets model List.mem_cons_self
    have entry : registry.get? model = some schema := by
      rw [dresses.get?, registered, untouched model List.mem_cons_self]
      rfl
    obtain ⟨flat, flattened, agrees⟩ :=
      ready model group schema earlier registry isFirst registered dresses sofar
    have here := (addBackrefs_eq_ok_iff entry).mpr ⟨flat, flattened, agrees, rfl⟩
    have notRest : ∀ name ∈ Keyed.keys rest, name ≠ model := fun name member same =>
      once (same ▸ member)
    obtain ⟨next, added⟩ := ih
      (dresses.insert registered noReference
        (.ofMissing (lacking (backrefsIn flat.fields) group))) inRest distinctRest
      (fun name member => targets name (List.mem_cons_of_mem _ member))
      (fun name member => by
        rw [if_neg (notRest name member)]
        exact untouched name (List.mem_cons_of_mem _ member))
      (fun name => by
        by_cases same : name = model
        · subst same
          rw [if_pos rfl]
          exact .inr ⟨group, _, isFirst, rfl, lacking_sublist _ _⟩
        · rw [if_neg same]
          exact sofar name)
    refine ⟨next, ?_⟩
    unfold addGroups
    rw [here]
    exact added

/-- How the values of back references correspond between a moment of the pass and a later one. -/
theorem keeps_backrefs {one : Registry} {top : Json}
    {related : Option Json → Option Json → Prop} (keyed : base.WellKeyed)
    (whole : top.isWellKeyed = true) (absent : related none none)
    (written : ∀ own, base.Follows none top (.obj own) →
      related (Keyed.get? own "x-backrefs") (Keyed.get? own "x-backrefs"))
    (laid : ∀ {before before' value value' : Option Json}, related before before' →
      related value value' →
        related (laidValue "x-backrefs" before value) (laidValue "x-backrefs" before' value'))
    (before : ∀ name, earlier name = .nothing ∨ earlier name = additions name)
    (added : ∀ name, base.Meets none top name → ∃ missing,
      additions name = .ofMissing missing ∧
        related none (Additions.backrefsValue missing) ∧
        related (Additions.backrefsValue missing) (Additions.backrefsValue missing)) :
    Keeps base one earlier additions none top "x-backrefs" related where
  absent := absent
  written own follows := ⟨keyed.distinct whole follows.composes, written own follows⟩
  laid := laid
  added name schema flat value registered meets _ same := by
    obtain ⟨missing, isMissing, appears, stays⟩ := added name meets
    have laidNone : ∀ value, laidValue "x-backrefs" value none = value := fun _ => rfl
    rcases before name with isNothing | isSame
    · rw [isNothing, isMissing, Additions.valueOver_nothing, Additions.valueOver_ofMissing,
        ← laidNone (Keyed.get? flat "x-backrefs")]
      exact laid same appears
    · rw [isSame, isMissing, Additions.valueOver_ofMissing, Additions.valueOver_ofMissing]
      exact laid same stays

/-- Only back references that are implied are added. -/
def OnlyImplied (base : Registry) (additions : String → Additions) : Prop :=
  ∀ name, ∃ missing, additions name = .ofMissing missing ∧ Distinct missing ∧
    ∀ field ∈ missing, base.Implies name field.1 field.2

/-- Back references that entities already have, those whose properties are implied, are objects. -/
def ObjectBackrefs (registry : Registry) : Prop :=
  ∀ model property reverse schema own value, registry.Implies model property reverse →
    registry.get? model = some schema → registry.Composes schema (.obj own) →
    Keyed.get? own "x-backrefs" = some value → value.isObject = true

/-- What is found among the back references of an entity is as it was or has been added, to an
entity that it is composed of, for something implied. -/
theorem keeps_joined {one : Registry} (keyed : base.WellKeyed) (objects : base.ObjectBackrefs)
    {property : String} {reverse : Json} (implied : base.Implies model property reverse)
    (registered : base.get? model = some schema)
    (before : ∀ name, earlier name = .nothing ∨ earlier name = additions name)
    (onlyImplied : base.OnlyImplied additions) :
    Keeps base one earlier additions none schema "x-backrefs" (Joined fun key value =>
      ∃ part, base.ReachesEntity schema part ∧ base.Implies part key value) := by
  have whole := keyed.of_get? registered
  have written : ∀ own, base.Follows none schema (.obj own) →
      IsFields (Keyed.get? own "x-backrefs") := by
    intro own follows value isWritten
    have isObject := objects _ _ _ _ own value implied registered follows.composes isWritten
    have object := keyed.of_composes follows.composes whole
    obtain ⟨fields, rfl⟩ : ∃ fields, value = .obj fields := by
      cases value <;> simp_all [Json.isObject, Json.fields?]
    exact ⟨fields, rfl, ((Json.isWellKeyed_obj _).mp
      (Json.isWellKeyed_of_get? object isWritten)).1⟩
  refine keeps_backrefs keyed whole (.refl isFields_none)
    (fun own follows => .refl (written own follows))
    (fun below above => below.laid (by decide) above) before fun name meets => ?_
  obtain ⟨missing, isMissing, distinct, within⟩ := onlyImplied name
  refine ⟨missing, isMissing, ?_, .refl (Additions.isFields_backrefsValue distinct)⟩
  cases missing with
  | nil => exact .refl isFields_none
  | cons pair rest =>
    refine .appeared distinct fun key value found => ⟨name, meets.reachesEntity, ?_⟩
    exact within _ (Keyed.mem_of_get? found)

end Registry

end EntityMapping
