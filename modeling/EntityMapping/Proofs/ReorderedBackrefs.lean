import EntityMapping.Proofs.RepeatedBackrefs
import EntityMapping.Proofs.Reordering

/-!
Adding back references in another order of the entities. Where no entity is composed of one with
an implied property of the same name, what the pass comes to can be read off the registry as it is
given: an entity gets the back references that it lacks there. So the order does not matter then;
otherwise it may, since back references that an entity has got count for those composed of it.
-/

set_option autoImplicit false
set_option relaxedAutoImplicit false

namespace EntityMapping

open Keyed (Distinct)

/-- Fragments of back references with the same pairs make the same value of a schema. -/
theorem Additions.sameValue_ofMissing {schema : Json} {missing others : Keyed Json}
    (whole : schema.isWellKeyed = true) (distinct : Distinct missing) (distinctToo : Distinct others)
    (values : ∀ field ∈ missing, field.2.sameValue field.2 = true)
    (same : ∀ key, Keyed.get? missing key = Keyed.get? others key) :
    ((Additions.ofMissing missing).apply schema).sameValue
      ((Additions.ofMissing others).apply schema) = true := by
  have sameLength := Keyed.length_eq_of_get? distinct distinctToo same
  have itself := Json.sameValue_self schema whole
  cases missing with
  | nil =>
    obtain rfl : others = [] := List.length_eq_zero_iff.mp sameLength.symm
    exact itself
  | cons first rest =>
  cases others with
  | nil => simp at sameLength
  | cons other later =>
  have fields : (Json.obj (first :: rest)).sameValue (.obj (other :: later)) = true := by
    rw [Json.sameValue, Bool.and_eq_true, Json.sameFields_iff]
    refine ⟨beq_iff_eq.mpr sameLength, fun field member => ⟨field.2, ?_, values field member⟩⟩
    rw [← same]
    exact Keyed.get?_of_mem distinct member
  have fragments : (Json.obj (Registry.backrefFragment (first :: rest))).sameValue
      (.obj (Registry.backrefFragment (other :: later))) = true := by
    rw [Json.sameValue, Bool.and_eq_true, Json.sameFields_iff]
    refine ⟨rfl, fun field member => ?_⟩
    simp only [Registry.backrefFragment, List.mem_cons, List.not_mem_nil, or_false] at member
    rcases member with rfl | rfl
    · exact ⟨_, rfl, rfl⟩
    · exact ⟨_, rfl, fields⟩
  have wrapped : ∀ one two : Json, one.sameValue two = true →
      (Json.obj [("allOf", .arr [schema, one])]).sameValue (.obj [("allOf", .arr [schema, two])]) =
        true := by
    intro one two same
    simp [Json.sameValue, Json.sameFields, Json.sameItems, Keyed.get?, itself, same]
  exact wrapped _ _ fragments

namespace Registry

variable {registry base other next : Registry} {groups : BackrefGroups}
  {additions earlier : String → Additions} {model : String} {group : Keyed Json} {schema : Json}

/-- No entity is composed of one that has an implied property of the same name, and what is written
already are objects. -/
structure BackrefsApart (registry : Registry) : Prop where
  objects : registry.ObjectBackrefs
  apart : ∀ model schema part property reverse other, registry.get? model = some schema →
    registry.ReachesEntity schema part → registry.Implies model property reverse →
    ¬ registry.Implies part property other

theorem BackrefsApart.agree (apart : base.BackrefsApart) : base.BackrefsAgree where
  objects := apart.objects
  agreeing model schema part property reverse other registered reaches implied impliedToo :=
    absurd impliedToo (apart.apart model schema part property reverse other registered reaches implied)

/-- Every entity of a group agrees with it in the registry as it is. -/
def AgreesAsGiven (registry : Registry) (groups : BackrefGroups) : Prop :=
  ∀ model group, (model, group) ∈ groups → ∃ schema flat, registry.get? model = some schema ∧
    registry.flatten model schema = .ok flat ∧ Agrees (backrefsIn flat.fields) group

/-- Under the names of its implied properties an entity has what it had, whatever other entities
have got. -/
theorem flatten_of_apart (keyed : base.WellKeyed) (apart : base.BackrefsApart)
    (dresses : base.Dresses earlier registry) (onlyImplied : base.OnlyImplied earlier)
    (registered : base.get? model = some schema) {property : String} {reverse : Json}
    (implied : base.Implies model property reverse) :
    Alike (fun flat other => ∀ property reverse, base.Implies model property reverse →
        Keyed.get? (backrefsIn other.fields) property = Keyed.get? (backrefsIn flat.fields) property)
      (base.flatten model schema) (registry.flatten model schema) := by
  have keeps : Keeps base base (fun _ => .nothing) earlier none schema "x-backrefs"
      (Joined fun key value => ∃ part, base.ReachesEntity schema part ∧ base.Implies part key value) :=
    keeps_joined keyed apart.objects implied registered (fun _ => .inl rfl) onlyImplied
  unfold flatten flattenWithout
  rw [dresses.chainLimit]
  refine (keeps.flattenFrom (.refl base) dresses (.self schema)).mono
    fun flat other same property reverse implied => ?_
  rcases same.2.2.2.each property with unchanged | ⟨value, -, part, reaches, impliedToo⟩
  · exact unchanged
  · exact absurd impliedToo (apart.apart _ _ _ _ _ _ registered reaches implied)

/-- The pass succeeds if every entity agrees with what is implied as it is given. -/
theorem addAllBackrefs_of_agreesAsGiven (keyed : base.WellKeyed) (references : base.RefersLocally)
    (apart : base.BackrefsApart) (found : base.backrefGroups = .ok groups)
    (agrees : base.AgreesAsGiven groups) : ∃ next, base.addAllBackrefs = (next, .ok ()) := by
  have groupsOf := groupsOf_of_backrefGroups found
  have distinct := distinct_backrefGroups found
  have distinctEach : ∀ {model group}, (model, group) ∈ groups → Distinct group := fun member =>
    ((Json.isWellKeyed_obj _).mp (wellKeyed_backrefGroups found _ member)).1
  have implies : ∀ {model group field}, (model, group) ∈ groups → field ∈ group →
      base.Implies model field.1 field.2 := by
    intro model group field member inGroup
    refine (groupsOf.reverses _ _ _).mp ?_
    rw [BackrefGroups.reverse?, Keyed.get?_of_mem distinct member]
    exact Keyed.get?_of_mem (distinctEach member) inGroup
  have run : base.addAllBackrefs = base.addGroups groups := by rw [addAllBackrefs, found]
  rw [run]
  refine exists_addGroups (.refl base) (List.Subset.refl _) distinct
    (targetsFit_of_backrefGroups references found) (fun _ _ => rfl) (fun _ => .inl rfl) ?_
  intro model group schema earlier registry member registered dresses sofar
  have onlyImplied : base.OnlyImplied earlier := by
    intro name
    rcases sofar name with isNothing | ⟨others, missing, inGroups, isMissing, sublist⟩
    · exact ⟨[], isNothing, Keyed.distinct_nil, by simp⟩
    · exact ⟨missing, isMissing, List.Nodup.sublist (sublist.map _) (distinctEach inGroups),
        fun field isField => implies inGroups (sublist.subset isField)⟩
  obtain ⟨property, reverse, implied⟩ := groupsOf.models model (List.mem_map.mpr ⟨_, member, rfl⟩)
  obtain ⟨_, flat, registeredToo, flattened, agreesHere⟩ := agrees model group member
  obtain rfl := Option.some.inj (registered.symm.trans registeredToo)
  have flats := flatten_of_apart keyed apart dresses onlyImplied registered implied
  rw [flattened] at flats
  obtain ⟨other, flattenedToo, same⟩ := flats.of_ok_left
  refine ⟨other, flattenedToo, fun field inGroup current found => ?_⟩
  rw [same _ _ (implies member inGroup)] at found
  exact agreesHere field inGroup current found

/-- What a pass comes to can be read off the registry as it is given. -/
theorem BackrefPass.asGiven (pass : base.BackrefPass groups additions next) (keyed : base.WellKeyed)
    (apart : base.BackrefsApart) (member : (model, group) ∈ groups) :
    ∃ schema flat, base.get? model = some schema ∧ base.flatten model schema = .ok flat ∧
      Agrees (backrefsIn flat.fields) group ∧
      additions model = .ofMissing (lacking (backrefsIn flat.fields) group) := by
  obtain ⟨turn⟩ := pass.turns model group member
  obtain ⟨property, reverse, implied⟩ :=
    (groupsOf_of_backrefGroups pass.found).models model (List.mem_map.mpr ⟨_, member, rfl⟩)
  have onlyImplied : base.OnlyImplied turn.earlier := by
    intro name
    rcases turn.before name with isNothing | isSame
    · exact ⟨[], isNothing, Keyed.distinct_nil, by simp⟩
    · rw [isSame]
      exact pass.onlyImplied name
  have flats := flatten_of_apart keyed apart turn.dresses onlyImplied turn.registered implied
  rw [turn.flattened] at flats
  obtain ⟨flat, flattened, same⟩ := flats.of_ok_right
  have lookups : ∀ field ∈ group, Keyed.get? (backrefsIn turn.flat.fields) field.1 =
      Keyed.get? (backrefsIn flat.fields) field.1 := fun field inGroup =>
    same _ _ (pass.implies_of_mem member inGroup)
  refine ⟨turn.schema, flat, turn.registered, flattened, fun field inGroup current found => ?_, ?_⟩
  · exact turn.agrees field inGroup current ((lookups field inGroup).trans found)
  · rw [turn.added]
    refine congrArg Additions.ofMissing (List.filter_congr fun field inGroup => ?_)
    rw [Keyed.contains, Keyed.contains, lookups field inGroup]

theorem Reorders.backrefsApart (reorders : base.Reorders other) (keyed : base.WellKeyed)
    (apart : base.BackrefsApart) : other.BackrefsApart := by
  have keyedToo := reorders.wellKeyed keyed
  have back := reorders.symm
  constructor
  · intro model property reverse schema own value implied registered parts written
    exact apart.objects model property reverse schema own value (back.implies keyedToo implied)
      (by rw [← reorders.get? keyed]; exact registered) (back.composes keyedToo parts) written
  · intro model schema part property reverse other registered reaches implied impliedToo
    exact apart.apart model schema part property reverse other
      (by rw [← reorders.get? keyed]; exact registered) (back.reachesEntity keyedToo reaches)
      (back.implies keyedToo implied) (back.implies keyedToo impliedToo)

section Reordered

variable {others : BackrefGroups} {group' : Keyed Json}

/-- In another order an entity has a group with the same pairs. -/
theorem Reorders.exists_group (reorders : base.Reorders other) (keyed : base.WellKeyed)
    (found : base.backrefGroups = .ok groups) (foundToo : other.backrefGroups = .ok others)
    (member : (model, group) ∈ groups) : ∃ group', (model, group') ∈ others ∧
      ∀ key, Keyed.get? group' key = Keyed.get? group key := by
  obtain ⟨_, foundAgain, sameReverse⟩ := reorders.backrefGroups keyed found
  obtain rfl := Except.ok.inj (foundToo.symm.trans foundAgain)
  obtain ⟨property, reverse, implied⟩ :=
    (groupsOf_of_backrefGroups found).models model (List.mem_map.mpr ⟨_, member, rfl⟩)
  have isReverse :=
    ((groupsOf_of_backrefGroups foundToo).reverses _ _ _).mpr (reorders.implies keyed implied)
  obtain ⟨group', inOthers, -⟩ := Option.bind_eq_some_iff.mp isReverse
  refine ⟨group', Keyed.mem_of_get? inOthers, fun key => ?_⟩
  have same := sameReverse model key
  rw [BackrefGroups.reverse?, BackrefGroups.reverse?, inOthers,
    Keyed.get?_of_mem (distinct_backrefGroups found) member] at same
  exact same

/-- In another order an entity agrees with its group if it did, and lacks the same. -/
theorem Reorders.lacking (reorders : base.Reorders other) (keyed : base.WellKeyed)
    (apart : base.BackrefsApart) (found : base.backrefGroups = .ok groups)
    (foundToo : other.backrefGroups = .ok others) (member : (model, group) ∈ groups)
    (memberToo : (model, group') ∈ others) (registered : base.get? model = some schema)
    {flat : FlatSchema} (flattened : base.flatten model schema = .ok flat)
    (agrees : Agrees (backrefsIn flat.fields) group) :
    ∃ flat', other.flatten model schema = .ok flat' ∧ Agrees (backrefsIn flat'.fields) group' ∧
      ∀ key, Keyed.get? (EntityMapping.lacking (backrefsIn flat'.fields) group') key =
        Keyed.get? (EntityMapping.lacking (backrefsIn flat.fields) group) key := by
  have groupsOf := groupsOf_of_backrefGroups found
  have distinctToo := distinct_backrefGroups foundToo
  obtain ⟨group', memberAgain, same⟩ := reorders.exists_group keyed found foundToo member
  obtain rfl := Option.some.inj
    ((Keyed.get?_of_mem distinctToo memberToo).symm.trans (Keyed.get?_of_mem distinctToo memberAgain))
  obtain ⟨property, reverse, implied⟩ := groupsOf.models model (List.mem_map.mpr ⟨_, member, rfl⟩)
  have flats := flatten_of_apart keyed apart (reorders.dresses keyed)
    (fun _ => ⟨[], rfl, Keyed.distinct_nil, by simp⟩) registered implied
  rw [flattened] at flats
  obtain ⟨flat', flattenedToo, lookups⟩ := flats.of_ok_left
  have lookup : ∀ key value, Keyed.get? group key = some value →
      Keyed.get? (backrefsIn flat'.fields) key = Keyed.get? (backrefsIn flat.fields) key := by
    intro key value inGroup
    refine lookups key value ((groupsOf.reverses _ _ _).mp ?_)
    rw [BackrefGroups.reverse?, Keyed.get?_of_mem (distinct_backrefGroups found) member]
    exact inGroup
  have distinctGroup : Distinct group' :=
    ((Json.isWellKeyed_obj _).mp (wellKeyed_backrefGroups foundToo _ memberToo)).1
  refine ⟨flat', flattenedToo, fun field inGroup current isCurrent => ?_, fun key => ?_⟩
  · have inFirst := Keyed.get?_of_mem distinctGroup inGroup
    rw [same] at inFirst
    rw [lookup _ _ inFirst] at isCurrent
    exact agrees field (Keyed.mem_of_get? inFirst) current isCurrent
  · rw [get?_lacking, get?_lacking, same]
    cases inGroup : Keyed.get? group key with
    | none => simp
    | some value => rw [lookup key value inGroup]

/-- Passes in two orders add back references with the same pairs. -/
theorem Reorders.exists_missing {nextToo : Registry} {additionsToo : String → Additions}
    (reorders : base.Reorders other) (keyed : base.WellKeyed) (apart : base.BackrefsApart)
    (pass : base.BackrefPass groups additions next)
    (passToo : other.BackrefPass others additionsToo nextToo) (name : String) :
    ∃ missing missingToo, additions name = .ofMissing missing ∧
      additionsToo name = .ofMissing missingToo ∧ Distinct missing ∧ Distinct missingToo ∧
      (∀ field ∈ missing, base.Implies name field.1 field.2) ∧
      ∀ key, Keyed.get? missing key = Keyed.get? missingToo key := by
  have keyedToo := reorders.wellKeyed keyed
  by_cases isMember : name ∈ Keyed.keys groups
  · obtain ⟨⟨_, group⟩, member, rfl⟩ := List.mem_map.mp isMember
    obtain ⟨group', memberToo, -⟩ := reorders.exists_group keyed pass.found passToo.found member
    obtain ⟨_, flat, registered, flattened, agrees, isAdded⟩ := pass.asGiven keyed apart member
    obtain ⟨flat', flattenedToo, -, same⟩ := reorders.lacking keyed apart pass.found passToo.found
      member memberToo registered flattened agrees
    obtain ⟨_, flatToo, registeredToo, flattenedAgain, -, isAddedToo⟩ :=
      passToo.asGiven keyedToo (reorders.backrefsApart keyed apart) memberToo
    obtain rfl := Option.some.inj (registered.symm.trans
      ((reorders.get? keyed _).symm.trans registeredToo))
    obtain rfl := Except.ok.inj (flattenedToo.symm.trans flattenedAgain)
    exact ⟨_, _, isAdded, isAddedToo, pass.distinct_lacking member _,
      passToo.distinct_lacking memberToo _, fun field isLacking =>
      pass.implies_of_mem member ((lacking_sublist _ _).subset isLacking), fun key => (same key).symm⟩
  · have isMemberToo : name ∉ Keyed.keys others := by
      intro inOthers
      obtain ⟨⟨_, group'⟩, memberToo, rfl⟩ := List.mem_map.mp inOthers
      obtain ⟨group, member, -⟩ :=
        reorders.symm.exists_group keyedToo passToo.found pass.found memberToo
      exact isMember (List.mem_map.mpr ⟨_, member, rfl⟩)
    exact ⟨[], [], pass.outside name isMember, passToo.outside name isMemberToo, Keyed.distinct_nil,
      Keyed.distinct_nil, by simp, fun _ => rfl⟩

/-- A pass that succeeds in one order succeeds in another, and leaves the same schemas. -/
theorem Reorders.addAllBackrefs (reorders : base.Reorders other) (keyed : base.WellKeyed)
    (references : base.RefersLocally) (apart : base.BackrefsApart)
    (added : base.addAllBackrefs = (next, .ok ())) :
    ∃ nextToo, other.addAllBackrefs = (nextToo, .ok ()) ∧
      ∀ name, (next.get? name == nextToo.get? name) = true := by
  have keyedToo := reorders.wellKeyed keyed
  have referencesToo := reorders.refersLocally references
  have apartToo := reorders.backrefsApart keyed apart
  obtain ⟨groups, additions, pass⟩ := backrefPass_of_addAllBackrefs references added
  obtain ⟨others, foundToo, -⟩ := reorders.backrefGroups keyed pass.found
  have agreesToo : other.AgreesAsGiven others := by
    intro model group' memberToo
    obtain ⟨group, member, -⟩ :=
      reorders.symm.exists_group keyedToo foundToo pass.found memberToo
    obtain ⟨schema, flat, registered, flattened, agrees, -⟩ := pass.asGiven keyed apart member
    obtain ⟨flat', flattenedToo, agreesToo, -⟩ := reorders.lacking keyed apart pass.found foundToo
      member memberToo registered flattened agrees
    exact ⟨schema, flat', (reorders.get? keyed model).trans registered, flattenedToo, agreesToo⟩
  obtain ⟨nextToo, addedToo⟩ :=
    addAllBackrefs_of_agreesAsGiven keyedToo referencesToo apartToo foundToo agreesToo
  refine ⟨nextToo, addedToo, fun name => ?_⟩
  obtain ⟨_, additionsToo, passToo⟩ := backrefPass_of_addAllBackrefs referencesToo addedToo
  obtain ⟨missing, missingToo, isAdded, isAddedToo, distinct, distinctToo, implied, same⟩ :=
    reorders.exists_missing keyed apart pass passToo name
  rw [pass.dresses.get?, passToo.dresses.get?, reorders.get? keyed, isAdded, isAddedToo]
  cases entry : base.get? name with
  | none => rfl
  | some schema =>
    refine Additions.sameValue_ofMissing (keyed.of_get? entry) distinct distinctToo
      (fun field member => ?_) same
    have isReverse := (implied field member).isReverse
    exact (isReverse.beq_iff isReverse).mpr rfl

end Reordered

/-- What relationships imply can be grouped in every order or in none, to the same groups. Where no
entity is composed of one with an implied property of the same name, the whole pass succeeds in
every order or in none, and leaves the same schemas. -/
theorem addAllBackrefs_perm (keyed : base.WellKeyed) (references : base.RefersLocally)
    (reorders : base.Reorders other) :
    (∀ groups, base.backrefGroups = .ok groups → ∃ others, other.backrefGroups = .ok others ∧
      ∀ model property, others.reverse? model property = groups.reverse? model property) ∧
    (base.BackrefsApart →
      (base.addAllBackrefs.2 = .ok () ↔ other.addAllBackrefs.2 = .ok ()) ∧
      (base.addAllBackrefs.2 = .ok () → ∀ name,
        (base.addAllBackrefs.1.get? name == other.addAllBackrefs.1.get? name) = true)) := by
  have keyedToo := reorders.wellKeyed keyed
  refine ⟨fun groups found => reorders.backrefGroups keyed found, fun apart => ?_⟩
  refine ⟨⟨fun added => ?_, fun added => ?_⟩, fun added => ?_⟩
  · have ran : base.addAllBackrefs = (base.addAllBackrefs.1, .ok ()) := Prod.ext rfl added
    obtain ⟨nextToo, addedToo, -⟩ := reorders.addAllBackrefs keyed references apart ran
    exact congrArg Prod.snd addedToo
  · have ran : other.addAllBackrefs = (other.addAllBackrefs.1, .ok ()) := Prod.ext rfl added
    obtain ⟨next, addedToo, -⟩ := reorders.symm.addAllBackrefs keyedToo
      (reorders.refersLocally references) (reorders.backrefsApart keyed apart) ran
    exact congrArg Prod.snd addedToo
  · have ran : base.addAllBackrefs = (base.addAllBackrefs.1, .ok ()) := Prod.ext rfl added
    obtain ⟨nextToo, addedToo, same⟩ := reorders.addAllBackrefs keyed references apart ran
    rw [addedToo]
    exact same

/-- Tutors, who are persons, and what has them as events: meetings of persons and lessons of tutors,
in some order. -/
def faculty (events : Keyed Json) : Registry where
  entries := [
    ("Tutor", .obj [("allOf", .arr [.obj [("$ref", .str "#/Person")],
      .obj [("x-tablename", .str "tutor")]])]),
    ("Person", tableSchema "person" [])] ++ events
  place := none
  documents := Documents.empty

def meetings : String × Json := ("Meeting", tableSchema "meeting" [("person", eventOf "Person")])

def lessons : String × Json := ("Lesson", tableSchema "lesson" [("tutor", eventOf "Tutor")])

/-- An order that matters: tutors have the events of persons if persons get theirs first. -/
theorem addAllBackrefs_perm_faculty :
    (faculty [meetings, lessons]).Reorders (faculty [lessons, meetings]) ∧
      (faculty [meetings, lessons]).addAllBackrefs.2 =
        .error (.malformedRelationship (.backrefDiffers "Tutor" "events")) ∧
      (faculty [lessons, meetings]).addAllBackrefs.2 = .ok () ∧
      ¬ (faculty [meetings, lessons]).BackrefsApart := by
  have keyed : (faculty [meetings, lessons]).WellKeyed :=
    wellKeyed_of_entries (by decide) (by decide +kernel)
  have references : (faculty [meetings, lessons]).RefersLocally := by decide +kernel
  have reorders : (faculty [meetings, lessons]).Reorders (faculty [lessons, meetings]) :=
    ⟨(List.Perm.swap _ _ _).append_left _, rfl, rfl⟩
  have failed : (faculty [meetings, lessons]).addAllBackrefs.2 =
      .error (.malformedRelationship (.backrefDiffers "Tutor" "events")) := by cbv
  have succeeded : (faculty [lessons, meetings]).addAllBackrefs.2 = .ok () := by cbv
  refine ⟨reorders, failed, succeeded, fun apart => ?_⟩
  have added := ((addAllBackrefs_perm keyed references reorders).2 apart).1.mpr succeeded
  cases failed.symm.trans added

end Registry

end EntityMapping
