import Mathlib
import EntityMapping.Proofs.AddedBackrefs
import EntityMapping.Proofs.PreparedRegistries

/-!
Adding back references a second time. Everything that the relationships of the resulting registry
imply is there already, so nothing is added; but what an entity has under the name of an implied
property may have come from an entity that it is composed of, and then need not agree.
-/

set_option autoImplicit false
set_option relaxedAutoImplicit false

namespace EntityMapping

open Keyed (Distinct)

namespace Registry

variable {registry base next : Registry} {groups : BackrefGroups}
  {additions : String → Additions} {model : String} {group : Keyed Json}

/-- A pass that adds the back references of all relationships: what is implied, what is added, and
the registry that it leaves. -/
structure BackrefPass (base : Registry) (groups : BackrefGroups)
    (additions : String → Additions) (next : Registry) : Prop where
  found : base.backrefGroups = .ok groups
  dresses : base.Dresses additions next
  outside : ∀ name, name ∉ Keyed.keys groups → additions name = .nothing
  turns : ∀ model group, (model, group) ∈ groups → Nonempty (base.Turn additions model group)
  names : next.names = base.names

theorem isObjectEntity_of_mem (references : base.RefersLocally)
    (found : base.backrefGroups = .ok groups) (member : model ∈ Keyed.keys groups) :
    base.IsObjectEntity model := by
  obtain ⟨property, schema, implied⟩ := (groupsOf_of_backrefGroups found).models model member
  exact implied.isObjectEntity references

theorem targetsFit_of_backrefGroups (references : base.RefersLocally)
    (found : base.backrefGroups = .ok groups) : base.TargetsFit groups := by
  intro model member
  obtain ⟨schema, flat, registered, noReference, -⟩ := isObjectEntity_of_mem references found member
  exact ⟨schema, registered, noReference⟩

theorem backrefPass_of_addAllBackrefs (references : base.RefersLocally)
    (added : base.addAllBackrefs = (next, .ok ())) :
    ∃ groups additions, base.BackrefPass groups additions next := by
  have names := (extends_addAllBackrefs base).names
  rw [added] at names
  unfold addAllBackrefs at added
  cases found : base.backrefGroups with
  | error e =>
    rw [found] at added
    cases added
  | ok groups =>
    rw [found] at added
    obtain ⟨additions, dresses, outside, turns⟩ := turns_of_addGroups (.refl base)
      (distinct_backrefGroups found) (targetsFit_of_backrefGroups references found)
      (fun _ _ => rfl) added
    exact ⟨groups, additions, found, dresses, outside, turns, names⟩

namespace BackrefPass

variable (pass : base.BackrefPass groups additions next)

include pass

theorem distinct_group (member : (model, group) ∈ groups) : Distinct group :=
  ((Json.isWellKeyed_obj group).mp (wellKeyed_backrefGroups pass.found _ member)).1

theorem implies_of_mem {field : String × Json} (member : (model, group) ∈ groups)
    (inGroup : field ∈ group) : base.Implies model field.1 field.2 := by
  refine ((groupsOf_of_backrefGroups pass.found).reverses _ _ _).mp ?_
  rw [BackrefGroups.reverse?, Keyed.get?_of_mem (distinct_backrefGroups pass.found) member]
  exact Keyed.get?_of_mem (pass.distinct_group member) inGroup

theorem distinct_lacking (member : (model, group) ∈ groups) (existing : Keyed Json) :
    Distinct (lacking existing group) :=
  EntityMapping.distinct_lacking (pass.distinct_group member) existing

theorem onlyImplied : base.OnlyImplied additions := by
  intro name
  by_cases member : name ∈ Keyed.keys groups
  · obtain ⟨⟨_, group⟩, inGroups, rfl⟩ := List.mem_map.mp member
    obtain ⟨turn⟩ := pass.turns _ _ inGroups
    exact ⟨_, turn.added, pass.distinct_lacking inGroups _, fun field isMissing =>
      pass.implies_of_mem inGroups ((lacking_sublist _ _).subset isMissing)⟩
  · exact ⟨[], pass.outside name member, Keyed.distinct_nil, by simp⟩

theorem noKeys (name : String) : (additions name).keys = [] := by
  obtain ⟨missing, isMissing, -⟩ := pass.onlyImplied name
  rw [isMissing, Additions.keys_ofMissing]

theorem typed (references : base.RefersLocally) : base.ObjectsDressed additions := by
  intro name schema flat notEmpty registered derivation
  have member : name ∈ Keyed.keys groups := by
    by_contra notMember
    exact notEmpty (pass.outside name notMember ▸ rfl)
  obtain ⟨_, other, registeredToo, -, derivationToo, isObject⟩ :=
    isObjectEntity_of_mem references pass.found member
  obtain rfl := Option.some.inj (registered.symm.trans registeredToo)
  exact derivation.unique derivationToo ▸ isObject

/-- The resulting registry implies what the registry implied. -/
theorem backrefGroups (keyed : base.WellKeyed) (references : base.RefersLocally) :
    next.backrefGroups = .ok groups := by
  rw [pass.dresses.backrefGroups keyed (pass.typed references) (.of_nil pass.noKeys) pass.names]
  exact pass.found

/-- What an entity has in the end under the name of an implied property: what it lacked at its turn,
and otherwise what has become of the rest. -/
theorem flatten_next (member : (model, group) ∈ groups) (turn : base.Turn additions model group)
    {related : Option Json → Option Json → Prop}
    (keeps : Keeps base turn.registry turn.earlier additions none turn.schema "x-backrefs" related) :
    ∃ schema flat value, next.get? model = some schema ∧ next.flatten model schema = .ok flat ∧
      related (Keyed.get? turn.flat.fields "x-backrefs") value ∧
      ∀ key, Keyed.get? (backrefsIn flat.fields) key =
        (Keyed.get? (lacking (backrefsIn turn.flat.fields) group) key).or
          (Keyed.get? (fieldsIn value) key) := by
  have flats : Alike (Corresponds "x-backrefs" related) (turn.registry.flatten model turn.schema)
      (next.flatten model turn.schema) := by
    unfold flatten flattenWithout
    rw [turn.dresses.chainLimit, pass.dresses.chainLimit]
    exact keeps.flattenFrom turn.dresses pass.dresses (.self turn.schema)
  rw [turn.flattened] at flats
  obtain ⟨other, flattened, -, -, distinct, same⟩ := flats.of_ok_left
  have entry : next.get? model = some ((additions model).apply turn.schema) := by
    rw [pass.dresses.get?, turn.registered, Option.map_some]
  refine ⟨_, ⟨other.name, (additions model).laidOn other.fields⟩, _, entry, ?_, same, fun key => ?_⟩
  · rw [flatten, Dresses.flattenWithout_apply (pass.dresses.named _ _ turn.registered)]
    rw [flatten] at flattened
    rw [flattened]
    rfl
  · rw [backrefsIn, Additions.get?_laidOn distinct, turn.added, Additions.valueOver_ofMissing,
      get?_fieldsIn_laid (by decide)
        (Additions.isFields_backrefsValue (pass.distinct_lacking member _)),
      Additions.fieldsIn_backrefsValue]

end BackrefPass

/-- An entity has the back references of a group. -/
def CarriesBackrefs (registry : Registry) (model : String) (group : Keyed Json) : Prop :=
  ∃ schema flat, registry.get? model = some schema ∧ registry.flatten model schema = .ok flat ∧
    ∀ field ∈ group, ∃ current, Keyed.get? (backrefsIn flat.fields) field.1 = some current ∧
      (current == field.2) = true

/-- An entity has a property under the name of every back reference of a group. -/
def NamesBackrefs (registry : Registry) (model : String) (group : Keyed Json) : Prop :=
  ∃ schema flat, registry.get? model = some schema ∧ registry.flatten model schema = .ok flat ∧
    ∀ field ∈ group, field.1 ∈ Keyed.keys (backrefsIn flat.fields)

/-- Groups under whose names everything is there are added without a change, if they can be. -/
theorem addGroups_of_namesBackrefs
    (named : ∀ model group, (model, group) ∈ groups → registry.NamesBackrefs model group) :
    (registry.addGroups groups).1 = registry ∧ ((registry.addGroups groups).2 = .ok () ↔
      ∀ model group, (model, group) ∈ groups → registry.CarriesBackrefs model group) := by
  induction groups with
  | nil => exact ⟨rfl, by simp [addGroups]⟩
  | cons first rest ih =>
    obtain ⟨model, group⟩ := first
    obtain ⟨same, carried⟩ := ih fun name others member => named name others (.tail _ member)
    obtain ⟨schema, flat, registered, flattened, present⟩ := named model group List.mem_cons_self
    have nothingLacks : lacking (backrefsIn flat.fields) group = [] := by
      refine List.eq_nil_iff_forall_not_mem.mpr fun field isLacking => ?_
      obtain ⟨inGroup, absent⟩ := mem_lacking.mp isLacking
      exact (Keyed.get?_eq_none_iff _ _).mp absent (present field inGroup)
    have unchanged : registry.insert model schema = registry := by
      rw [Registry.insert, Keyed.set_of_get? registered]
    have split : (∀ name others, (name, others) ∈ (model, group) :: rest →
          registry.CarriesBackrefs name others) ↔ registry.CarriesBackrefs model group ∧
        ∀ name others, (name, others) ∈ rest → registry.CarriesBackrefs name others := by
      simp only [List.mem_cons, Prod.mk.injEq]
      constructor
      · exact fun all => ⟨all model group (.inl ⟨rfl, rfl⟩), fun name others member =>
          all name others (.inr member)⟩
      · rintro ⟨here, later⟩ name others (⟨rfl, rfl⟩ | member)
        · exact here
        · exact later name others member
    have here : Agrees (backrefsIn flat.fields) group ↔ registry.CarriesBackrefs model group := by
      constructor
      · intro agrees
        refine ⟨schema, flat, registered, flattened, fun field inGroup => ?_⟩
        have isPresent := present field inGroup
        cases found : Keyed.get? (backrefsIn flat.fields) field.1 with
        | none => exact absurd isPresent ((Keyed.get?_eq_none_iff _ _).mp found)
        | some current => exact ⟨current, rfl, agrees field inGroup current found⟩
      · rintro ⟨_, _, registeredToo, flattenedToo, carries⟩ field inGroup current found
        obtain rfl := Option.some.inj (registered.symm.trans registeredToo)
        obtain rfl := Except.ok.inj (flattened.symm.trans flattenedToo)
        obtain ⟨other, foundToo, agrees⟩ := carries field inGroup
        exact Option.some.inj (found.symm.trans foundToo) ▸ agrees
    rw [split, ← here]
    by_cases agrees : Agrees (backrefsIn flat.fields) group
    · have added : registry.addBackrefs (model, group) = .ok registry :=
        (addBackrefs_eq_ok_iff registered).mpr
          ⟨flat, flattened, agrees, by rw [nothingLacks]; exact unchanged.symm⟩
      simp only [addGroups, added]
      exact ⟨same, by simpa [agrees] using carried⟩
    · cases added : registry.addBackrefs (model, group) with
      | ok next =>
        obtain ⟨other, flattenedToo, agreesToo, -⟩ := (addBackrefs_eq_ok_iff registered).mp added
        exact absurd (Except.ok.inj (flattened.symm.trans flattenedToo) ▸ agreesToo) agrees
      | error e => simp [addGroups, added, agrees]

/-- Back references of entities that are composed of one another agree: the same name stands for
the same property, and what is written already are objects. -/
structure BackrefsAgree (registry : Registry) : Prop where
  objects : registry.ObjectBackrefs
  agreeing : ∀ model schema part property reverse other, registry.get? model = some schema →
    registry.ReachesEntity schema part → registry.Implies model property reverse →
    registry.Implies part property other → reverse = other

namespace BackrefPass

variable (pass : base.BackrefPass groups additions next)

include pass

/-- In the end an entity has a property under the name of every back reference of its group. -/
theorem namesBackrefs (keyed : base.WellKeyed) (member : (model, group) ∈ groups) :
    next.NamesBackrefs model group := by
  obtain ⟨turn⟩ := pass.turns model group member
  have whole := keyed.of_get? turn.registered
  have joining : Joining.ofKeyword "x-backrefs" = .byKey := by decide
  have keeps : Keeps base turn.registry turn.earlier additions none turn.schema "x-backrefs"
      PropertiesGrow := by
    refine keeps_backrefs keyed whole .absent (fun _ _ => .refl _) ?_ turn.before ?_
    · intro before before' value value' below above
      rw [laidValue_byKey joining, laidValue_byKey joining]
      exact below.laid above
    · intro name _
      obtain ⟨missing, isMissing, -⟩ := pass.onlyImplied name
      refine ⟨missing, isMissing, ?_, .refl _⟩
      cases missing with
      | nil => exact .absent
      | cons pair rest => exact .appeared _
  obtain ⟨schema, flat, value, entry, flattened, grow, found⟩ :=
    pass.flatten_next member turn keeps
  refine ⟨schema, flat, entry, flattened, fun field inGroup => ?_⟩
  by_contra absent
  have none := (Keyed.get?_eq_none_iff _ _).mpr absent
  rw [found, Option.or_eq_none_iff] at none
  obtain ⟨notLacking, notBelow⟩ := none
  rw [Keyed.get?_eq_none_iff] at notLacking notBelow
  have notBefore : Keyed.get? (backrefsIn turn.flat.fields) field.1 = none := by
    rw [Keyed.get?_eq_none_iff]
    exact fun before => notBelow (grow.subset before)
  exact notLacking (List.mem_map.mpr ⟨field, mem_lacking.mpr ⟨inGroup, notBefore⟩, rfl⟩)

/-- In the end an entity has the back references of its group, if those of entities that it is
composed of agree with them. -/
theorem carriesBackrefs (keyed : base.WellKeyed) (agree : base.BackrefsAgree)
    (member : (model, group) ∈ groups) : next.CarriesBackrefs model group := by
  obtain ⟨turn⟩ := pass.turns model group member
  obtain ⟨_, _, impliedSome⟩ := (groupsOf_of_backrefGroups pass.found).models model
    (List.mem_map.mpr ⟨_, member, rfl⟩)
  obtain ⟨schema, flat, value, entry, flattened, joined, found⟩ := pass.flatten_next member turn
    (keeps_joined keyed agree.objects impliedSome turn.registered turn.before pass.onlyImplied)
  refine ⟨schema, flat, entry, flattened, fun field inGroup => ?_⟩
  have implied := pass.implies_of_mem member inGroup
  have itself : (field.2 == field.2) = true := (implied.isReverse.beq_iff implied.isReverse).mpr rfl
  rw [found]
  cases before : Keyed.get? (backrefsIn turn.flat.fields) field.1 with
  | none =>
    -- lacking at its turn, and added then
    have isLacking : field ∈ lacking (backrefsIn turn.flat.fields) group :=
      mem_lacking.mpr ⟨inGroup, before⟩
    exact ⟨field.2, by rw [Keyed.get?_of_mem (pass.distinct_lacking member _) isLacking]; rfl,
      itself⟩
  | some current =>
    -- there at its turn, so it agreed then; what has been added since agrees by assumption
    have notLacking : Keyed.get? (lacking (backrefsIn turn.flat.fields) group) field.1 = none := by
      simp [get?_lacking, before]
    rw [notLacking, Option.none_or]
    rcases joined.each field.1 with same | ⟨added, isAdded, part, reaches, reverse⟩
    · exact ⟨current, same.trans before, turn.agrees field inGroup current before⟩
    · have sameReverse :=
        agree.agreeing model _ part field.1 field.2 added turn.registered reaches implied reverse
      exact ⟨added, isAdded, sameReverse ▸ itself⟩

end BackrefPass

/-- Adding the back references of all relationships again changes nothing. It succeeds exactly if
every entity has come to have all back references that are implied; and it does succeed if the back
references of entities that are composed of one another agree. -/
theorem addAllBackrefs_again (keyed : base.WellKeyed) (references : base.RefersLocally)
    (added : base.addAllBackrefs = (next, .ok ())) :
    next.addAllBackrefs.1 = next ∧ ∃ groups, base.backrefGroups = .ok groups ∧
      next.backrefGroups = .ok groups ∧
      (next.addAllBackrefs.2 = .ok () ↔
        ∀ model group, (model, group) ∈ groups → next.CarriesBackrefs model group) ∧
      (base.BackrefsAgree → next.addAllBackrefs = (next, .ok ())) := by
  obtain ⟨groups, additions, pass⟩ := backrefPass_of_addAllBackrefs references added
  have found := pass.backrefGroups keyed references
  obtain ⟨same, carried⟩ := addGroups_of_namesBackrefs fun model group member =>
    pass.namesBackrefs keyed member
  have run : next.addAllBackrefs = next.addGroups groups := by
    rw [addAllBackrefs, found]
  rw [run]
  refine ⟨same, groups, pass.found, found, carried, fun agree => ?_⟩
  exact Prod.ext same (carried.mpr fun model group member =>
    pass.carriesBackrefs keyed agree member)

/-- Schemas of entities with a table. -/
def tableSchema (tablename : String) (properties : Keyed Json) : Json :=
  .obj [("type", .str "object"), ("x-tablename", .str tablename), ("properties", .obj
    (("id", .obj [("type", .str "integer"), ("x-primary-key", .bool true)]) :: properties))]

/-- A relationship to one entity, which knows the other side as its events. -/
def eventOf (entity : String) : Json :=
  .obj [("allOf", .arr [.obj [("$ref", .str ("#/" ++ entity))],
    .obj [("x-backref", .str "events")]])]

/-- Tutors are students and persons. Lessons are events of students and tutors, and meetings are
events of persons. -/
def school : Registry where
  entries := [
    ("Student", tableSchema "student" []),
    ("Tutor", .obj [("allOf", .arr [.obj [("$ref", .str "#/Student")],
      .obj [("$ref", .str "#/Person")]])]),
    ("Person", tableSchema "person" []),
    ("Lesson", tableSchema "lesson" [("student", eventOf "Student"), ("tutor", eventOf "Tutor")]),
    ("Meeting", tableSchema "meeting" [("person", eventOf "Person")])]
  place := none
  documents := Documents.empty

/-- A second pass that does not succeed: tutors have lessons as events when it is their turn in the
first pass, and meetings once that pass has come to persons. -/
theorem addAllBackrefs_again_school :
    let prepared := (school.insert "Student" (wrap (tableSchema "student" []) (backrefFragment
        [("events", .obj (Relationship.listSchema "Lesson"))]))).insert "Person"
      (wrap (tableSchema "person" []) (backrefFragment
        [("events", .obj (Relationship.listSchema "Meeting"))]))
    school.addAllBackrefs = (prepared, .ok ()) ∧
      prepared.addAllBackrefs =
        (prepared, .error (.malformedRelationship (.backrefDiffers "Tutor" "events"))) ∧
      ¬ school.BackrefsAgree := by
  intro prepared
  have keyed : school.WellKeyed := wellKeyed_of_entries (by decide) (by decide +kernel)
  have references : school.RefersLocally := by decide +kernel
  have first : school.addAllBackrefs = (prepared, .ok ()) := by cbv
  have second : prepared.addAllBackrefs.2 =
      .error (.malformedRelationship (.backrefDiffers "Tutor" "events")) := by cbv
  obtain ⟨same, groups, -, -, -, succeeds⟩ := addAllBackrefs_again keyed references first
  refine ⟨first, Prod.ext same second, fun agree => ?_⟩
  rw [succeeds agree] at second
  cases second

end Registry

end EntityMapping
