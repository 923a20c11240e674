import EntityMapping.Proofs.RepeatedBackrefs

/-!
Back references are grouped exactly. The groups have what the entities imply in the registry as it
is given. When groups are added, an entity has one turn: what it lacks then is put on top of its
schema as it was given, and no other turn touches it. After its turn it has everything that is
implied on it, since an entity whose schema can be flattened is not composed of itself.
-/

set_option autoImplicit false
set_option relaxedAutoImplicit false

namespace EntityMapping

open Keyed (Distinct)

namespace Registry

variable {registry base before after next : Registry} {groups earlier later : BackrefGroups}
  {model name : String} {schema other : Json} {group : Keyed Json}

theorem get?_insert_of_ne (different : model ≠ name) :
    (registry.insert name schema).get? model = registry.get? model :=
  Keyed.get?_set_of_ne _ _ different

theorem chainLimit_insert (registered : registry.get? name = some schema) :
    (registry.insert name other).chainLimit = registry.chainLimit := by
  have sameLength : (registry.insert name other).entries.length = registry.entries.length :=
    Keyed.length_set _ _ (Keyed.mem_keys_of_get? registered)
  simp only [chainLimit, sameLength]
  rfl

/-- Only references to an entity tell that its schema has been set. -/
theorem target_insert {text : String} {parsed : Reference} (different : parsed ≠ .entity name) :
    (registry.insert name other).target text parsed = registry.target text parsed := by
  cases parsed with
  | remote document pointer => rfl
  | entity wanted =>
    have notSame : wanted ≠ name := fun same => different (same ▸ rfl)
    simp only [target, get?_insert_of_ne notSame]

/-- A schema that is not composed of an entity does not tell that the entity's schema has been
set. -/
theorem flattenFrom_insert {skip : Option String} {hops : Nat} {visited : List String}
    {called : String} (apart : ¬ registry.ReachesEntity schema name) :
    (registry.insert name other).flattenFrom skip hops visited called schema =
      registry.flattenFrom skip hops visited called schema := by
  refine flattenFrom_congr fun text parsed reached parse => target_insert ?_
  rintro rfl
  exact apart ⟨text, reached, parse⟩

/-- An entity whose schema can be flattened is not composed of itself. -/
theorem not_reachesEntity_of_flatten {flat : FlatSchema}
    (registered : registry.get? model = some schema)
    (flattened : registry.flatten model schema = .ok flat) :
    ¬ registry.ReachesEntity schema model := by
  intro reached
  exact (derives_of_flattenFrom flattened).not_reachesCycle
    ⟨model, reached, schema, registered, reached⟩

/-- The schema that an entity gets for its back references is flattened as before, with the back
references on top. -/
theorem flatten_insert_wrap {fragment : Keyed Json} {flat : FlatSchema}
    (isFragment : IsFragment fragment) (registered : registry.get? model = some schema)
    (flattened : registry.flatten model schema = .ok flat) :
    (registry.insert model (wrap schema fragment)).flatten model (wrap schema fragment) =
      .ok ⟨model, overlaid flat.fields fragment⟩ := by
  have apart := not_reachesEntity_of_flatten registered flattened
  unfold flatten flattenWithout at flattened ⊢
  rw [flattenFrom_wrap isFragment, chainLimit_insert registered, flattenFrom_insert apart,
    flattened, ok_bind]

/-- After back references have been put on top of an entity, it has them, and otherwise what it
had. -/
theorem flatten_insert_ofMissing {flat : FlatSchema} {missing : Keyed Json}
    (keyed : registry.WellKeyed) (distinct : Distinct missing)
    (registered : registry.get? model = some schema)
    (flattened : registry.flatten model schema = .ok flat) :
    ∃ flatAfter, (registry.insert model ((Additions.ofMissing missing).apply schema)).flatten model
        ((Additions.ofMissing missing).apply schema) = .ok flatAfter ∧
      ∀ key, Keyed.get? (backrefsIn flatAfter.fields) key =
        (Keyed.get? missing key).or (Keyed.get? (backrefsIn flat.fields) key) := by
  cases missing with
  | nil =>
    have unchanged : registry.insert model schema = registry := by
      rw [Registry.insert, Keyed.set_of_get? registered]
    refine ⟨flat, ?_, fun key => by simp⟩
    change (registry.insert model schema).flatten model schema = _
    rw [unchanged, flattened]
  | cons pair rest =>
    have isFragment := isFragment_backrefFragment (pair :: rest)
    have written : Keyed.get? (backrefFragment (pair :: rest)) "x-backrefs" =
        some (.obj (pair :: rest)) := rfl
    have distinctFlat :=
      keyed.distinct_of_derives (derives_of_flattenFrom flattened) (keyed.of_get? registered)
    refine ⟨_, flatten_insert_wrap isFragment registered flattened, fun key => ?_⟩
    rw [backrefsIn, get?_overlaid distinctFlat isFragment, written,
      get?_fieldsIn_laid (by decide) (isFields_obj distinct)]
    rfl

/-- Right after its turn an entity has every back reference of its group. -/
theorem carriesBackrefs_of_addBackrefs (keyed : before.WellKeyed) (distinct : Distinct group)
    (self : ∀ field ∈ group, (field.2 == field.2) = true)
    (registered : before.get? model = some schema)
    (added : before.addBackrefs (model, group) = .ok after) :
    after.CarriesBackrefs model group := by
  obtain ⟨flat, flattened, agrees, rfl⟩ := (addBackrefs_eq_ok_iff registered).mp added
  obtain ⟨flatAfter, flattenedAfter, found⟩ := flatten_insert_ofMissing keyed
    (distinct_lacking distinct (backrefsIn flat.fields)) registered flattened
  refine ⟨_, flatAfter, Keyed.get?_set_self _ _ _, flattenedAfter, fun field member => ?_⟩
  rw [found, get?_lacking, Keyed.get?_of_mem distinct member]
  cases present : Keyed.get? (backrefsIn flat.fields) field.1 with
  | none => exact ⟨field.2, rfl, self field member⟩
  | some current => exact ⟨current, rfl, agrees field member current present⟩

theorem addGroups_append : registry.addGroups (earlier ++ later) = (next, .ok ()) ↔
    ∃ middle, registry.addGroups earlier = (middle, .ok ()) ∧
      middle.addGroups later = (next, .ok ()) := by
  induction earlier generalizing registry with
  | nil => simp [addGroups]
  | cons first rest ih =>
    rw [List.cons_append, addGroups, addGroups]
    cases registry.addBackrefs first with
    | error e => simp
    | ok middle => exact ih

/-- Groups for other entities leave an entity as it is. -/
theorem get?_addGroups (outside : model ∉ Keyed.keys groups)
    (added : registry.addGroups groups = (next, .ok ())) : next.get? model = registry.get? model := by
  induction groups generalizing registry with
  | nil => rw [(Prod.mk.inj added).1]
  | cons first rest ih =>
    obtain ⟨name, group⟩ := first
    simp only [Keyed.keys_cons, List.mem_cons, not_or] at outside
    unfold addGroups at added
    split at added
    · rename_i middle here
      rw [ih outside.2 added]
      cases registered : registry.get? name with
      | none => simp [addBackrefs, registered] at here
      | some schema =>
        obtain ⟨flat, -, -, rfl⟩ := (addBackrefs_eq_ok_iff registered).mp here
        exact get?_insert_of_ne outside.1
    · cases (Prod.mk.inj added).2

/-- The turn of an entity: the registries right before and after its group is added, once all groups
before have been. -/
def TurnOf (base : Registry) (model : String) (group : Keyed Json) (before after : Registry) :
    Prop :=
  ∃ earlier later, base.backrefGroups = .ok (earlier ++ (model, group) :: later) ∧
    base.addGroups earlier = (before, .ok ()) ∧ before.addBackrefs (model, group) = .ok after

/-- An entity does not tell what it implies, or a property is implied with two schemas. -/
def Contradicts (base : Registry) : Prop :=
  (∃ entity ∈ base.entries, ∃ e, base.entityBackrefs entity.1 entity.2 = .error e) ∨
    ∃ model property reverse other, base.Implies model property reverse ∧
      base.Implies model property other ∧ reverse ≠ other

theorem addAllBackrefs_of_contradicts (contradicts : base.Contradicts) :
    ∃ e, base.addAllBackrefs = (base, .error e) := by
  cases found : base.backrefGroups with
  | error e => exact ⟨e, by rw [addAllBackrefs, found]⟩
  | ok groups =>
    have exactly := groupsOf_of_backrefGroups found
    rcases contradicts with ⟨entity, registered, e, failed⟩ |
      ⟨model, property, reverse, other, implied, impliedToo, different⟩
    · obtain ⟨entries, told⟩ := exactly.entities entity registered
      cases failed.symm.trans told
    · have one := (exactly.reverses _ _ _).mpr implied
      have two := (exactly.reverses _ _ _).mpr impliedToo
      exact absurd (Option.some.inj (one.symm.trans two)) different

/-- What becomes of an entity on which something is implied. -/
structure Completed (base next : Registry) (model : String) where
  /-- What is implied on the entity in the registry as it is given. -/
  group : Keyed Json
  implied : ∀ property reverse,
    Keyed.get? group property = some reverse ↔ base.Implies model property reverse
  before : Registry
  after : Registry
  turn : base.TurnOf model group before after
  schema : Json
  flat : FlatSchema
  asGiven : base.get? model = some schema
  untouched : before.get? model = some schema
  flattened : before.flatten model schema = .ok flat
  /-- What the entity has already is the same as what is implied. -/
  agrees : ∀ property reverse current, base.Implies model property reverse →
    Keyed.get? (backrefsIn flat.fields) property = some current → (current == reverse) = true
  missing : Keyed Json
  distinct : Distinct missing
  lacked : ∀ property reverse, Keyed.get? missing property = some reverse ↔
    base.Implies model property reverse ∧ Keyed.get? (backrefsIn flat.fields) property = none
  /-- The entity stays as it is if it lacks nothing, and otherwise gets all that it lacks, once. -/
  completed : next.get? model =
    some (if missing.isEmpty then schema else wrap schema (backrefFragment missing))
  carries : after.CarriesBackrefs model group
  last : next.get? model = after.get? model

theorem completed_of_mem (keyed : base.WellKeyed) (found : base.backrefGroups = .ok groups)
    (added : base.addGroups groups = (next, .ok ())) (member : (model, group) ∈ groups) :
    Nonempty (base.Completed next model) := by
  obtain ⟨earlier, later, rfl⟩ := List.append_of_mem member
  have distinct := distinct_backrefGroups found
  have whole := wellKeyed_backrefGroups found
  have exactly := groupsOf_of_backrefGroups found
  have distinctGroup : Distinct group := ((Json.isWellKeyed_obj group).mp (whole _ member)).1
  have implied : ∀ property reverse,
      Keyed.get? group property = some reverse ↔ base.Implies model property reverse := by
    intro property reverse
    rw [← exactly.reverses, BackrefGroups.reverse?, Keyed.get?_of_mem distinct member]
    rfl
  -- The groups before and after are for other entities.
  have apart : model ∉ Keyed.keys earlier ∧ model ∉ Keyed.keys later :=
    Keyed.notMem_keys_of_cut distinct
  obtain ⟨before, addedBefore, added⟩ := addGroups_append.mp added
  have keyedBefore : before.WellKeyed := by
    have keyedThen := keyed.addGroups fun other inEarlier =>
      whole other (List.mem_append_left _ inEarlier)
    rw [addedBefore] at keyedThen
    exact keyedThen
  have untouched := get?_addGroups apart.1 addedBefore
  unfold addGroups at added
  split at added
  · rename_i after here
    cases registered : base.get? model with
    | none =>
      rw [registered] at untouched
      simp [addBackrefs, untouched] at here
    | some schema =>
      rw [registered] at untouched
      obtain ⟨flat, flattened, agrees, isAfter⟩ := (addBackrefs_eq_ok_iff untouched).mp here
      have last := get?_addGroups apart.2 added
      have itself : ∀ field ∈ group, (field.2 == field.2) = true := by
        intro field inGroup
        have isReverse := ((implied _ _).mp (Keyed.get?_of_mem distinctGroup inGroup)).isReverse
        exact (isReverse.beq_iff isReverse).mpr rfl
      refine ⟨⟨group, implied, before, after, ⟨earlier, later, found, addedBefore, here⟩, schema, flat,
        registered, untouched, flattened, fun property reverse current isImplied present => ?_,
        lacking (backrefsIn flat.fields) group, distinct_lacking distinctGroup _,
        fun property reverse => ?_, ?_,
        carriesBackrefs_of_addBackrefs keyedBefore distinctGroup itself untouched here, last⟩⟩
      · exact agrees _ (Keyed.mem_of_get? ((implied _ _).mpr isImplied)) current present
      · rw [get?_lacking, ← implied]
        cases Keyed.get? (backrefsIn flat.fields) property <;> simp
      · rw [last, isAfter]
        refine (Keyed.get?_set_self _ _ _).trans (congrArg some ?_)
        cases lacking (backrefsIn flat.fields) group <;> rfl
  · cases (Prod.mk.inj added).2

/-- Adding the back references of all relationships is exact. It fails without a change if entities
contradict each other. If it succeeds, the entities on which nothing is implied keep their schemas,
and every other one gets what it lacked at its turn of what is implied on it. -/
theorem addAllBackrefs_exact (keyed : base.WellKeyed) :
    (base.Contradicts → ∃ e, base.addAllBackrefs = (base, .error e)) ∧
      ∀ next, base.addAllBackrefs = (next, .ok ()) →
        next.names = base.names ∧
        (∀ model, (∀ property reverse, ¬ base.Implies model property reverse) →
          next.get? model = base.get? model) ∧
        ∀ model property reverse, base.Implies model property reverse →
          Nonempty (base.Completed next model) := by
  refine ⟨addAllBackrefs_of_contradicts, fun next added => ?_⟩
  have names := (extends_addAllBackrefs base).names
  rw [added] at names
  unfold addAllBackrefs at added
  split at added
  · rename_i groups found
    have exactly := groupsOf_of_backrefGroups found
    refine ⟨names, fun model nothing => ?_, fun model property reverse implied => ?_⟩
    · refine get?_addGroups (fun member => ?_) added
      obtain ⟨property, reverse, implied⟩ := exactly.models model member
      exact nothing property reverse implied
    · have isThere := (exactly.reverses _ _ _).mpr implied
      obtain ⟨group, inGroups, -⟩ := Option.bind_eq_some_iff.mp isThere
      exact completed_of_mem keyed found added (Keyed.mem_of_get? inGroups)
  · cases (Prod.mk.inj added).2

/-- Students and persons get what they lack, tutors have the events of students at their turn, and
nothing is implied on lessons. -/
theorem addAllBackrefs_exact_school : school.WellKeyed ∧
    ∃ next, school.addAllBackrefs = (next, .ok ()) ∧
      next.get? "Lesson" = school.get? "Lesson" ∧
      ∀ model ∈ ["Student", "Tutor", "Person"], Nonempty (school.Completed next model) := by
  have keyed : school.WellKeyed := wellKeyed_of_entries (by decide) (by decide +kernel)
  have added : school.addAllBackrefs = (school.addAllBackrefs.1, .ok ()) := by
    have succeeds : school.addAllBackrefs.2 = .ok () := by cbv
    exact Prod.ext rfl succeeds
  have found : school.backrefGroups =
      .ok [("Student", [("events", .obj (Relationship.listSchema "Lesson"))]),
        ("Tutor", [("events", .obj (Relationship.listSchema "Lesson"))]),
        ("Person", [("events", .obj (Relationship.listSchema "Meeting"))])] := by cbv
  have exactly := groupsOf_of_backrefGroups found
  obtain ⟨-, -, asGiven, completed⟩ := (addAllBackrefs_exact keyed).imp_right fun all => all _ added
  refine ⟨keyed, _, added, asGiven "Lesson" fun property reverse implied => ?_, ?_⟩
  · cases (exactly.reverses _ _ _).mpr implied
  · intro model member
    have implied : ∃ reverse, school.Implies model "events" reverse := by
      simp only [List.mem_cons, List.not_mem_nil, or_false] at member
      rcases member with rfl | rfl | rfl
      · exact ⟨_, (exactly.reverses "Student" "events" _).mp rfl⟩
      · exact ⟨_, (exactly.reverses "Tutor" "events" _).mp rfl⟩
      · exact ⟨_, (exactly.reverses "Person" "events" _).mp rfl⟩
    obtain ⟨reverse, implied⟩ := implied
    exact completed model "events" reverse implied

end Registry

end EntityMapping
