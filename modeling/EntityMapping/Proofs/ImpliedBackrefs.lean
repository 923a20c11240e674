import EntityMapping.Proofs.DressedDeclarations
import EntityMapping.Proofs.LocalRelationships

/-!
What the relationships of a registry imply. The groups of implied properties have every property
that some entity implies and no other, whatever the order of the entities; there are such groups
exactly if no two entities imply the same property with different schemas.
-/

set_option autoImplicit false
set_option relaxedAutoImplicit false

namespace EntityMapping

open Keyed (Distinct)

section Lists

variable {α β : Type} {items : List α} {others : List β}

/-- Folds over lists whose items do the same, place by place. -/
theorem foldlM_eq_of_forall₂ {γ : Type} {f : γ → α → Except SchemaError γ}
    {g : γ → β → Except SchemaError γ}
    (each : List.Forall₂ (fun item other => ∀ state, f state item = g state other) items others)
    (first : γ) : items.foldlM f first = others.foldlM g first := by
  induction each generalizing first with
  | nil => rfl
  | cons same _ ih =>
    rw [List.foldlM_cons, List.foldlM_cons, same]
    exact bind_congr ih

end Lists

/-- Keyed lists with the same keys, paired key by key. -/
theorem Keyed.forall₂_of_keys_eq {α β : Type} {fields : Keyed α} {others : Keyed β}
    (distinct : Distinct fields) (same : keys fields = keys others) :
    List.Forall₂ (fun field other => field.1 = other.1 ∧ get? fields field.1 = some field.2 ∧
      get? others field.1 = some other.2) fields others := by
  have distinctToo : Distinct others := by
    rw [Distinct, ← same]
    exact distinct
  have paired : List.Forall₂ (fun (field : String × α) (other : String × β) =>
      field.1 = other.1) fields others := by
    clear distinct distinctToo
    induction fields generalizing others with
    | nil =>
      obtain rfl := List.map_eq_nil_iff.mp same.symm
      exact .nil
    | cons field rest ih =>
      obtain ⟨other, later, rfl, sameKey, sameKeys⟩ := List.map_eq_cons_iff.mp same.symm
      exact .cons sameKey.symm (ih sameKeys.symm)
  obtain ⟨sameLength, pairs⟩ := List.forall₂_iff_zip.mp paired
  refine List.forall₂_iff_zip.mpr ⟨sameLength, fun {field other} member => ?_⟩
  obtain ⟨inFields, inOthers⟩ := List.of_mem_zip member
  have sameKey := pairs member
  exact ⟨sameKey, get?_of_mem distinct inFields, sameKey ▸ get?_of_mem distinctToo inOthers⟩

/-- The schema of the property on the other side of a relationship. -/
def IsReverse (schema : Json) : Prop :=
  ∃ (owner : String) (relationship : Relationship), schema = relationship.reverseSchema owner

/-- Such schemas have two keywords in a fixed order, so they are the same value only if they are
equal. -/
theorem IsReverse.beq_iff {schema other : Json} (isReverse : IsReverse schema)
    (isReverseToo : IsReverse other) : (schema == other) = true ↔ schema = other := by
  obtain ⟨owner, relationship, rfl⟩ := isReverse
  obtain ⟨ownerToo, relationshipToo, rfl⟩ := isReverseToo
  have same : ∀ list listToo : Bool,
      (Json.obj (if list then Relationship.listSchema owner
        else Relationship.referenceSchema owner)).sameValue
        (.obj (if listToo then Relationship.listSchema ownerToo
          else Relationship.referenceSchema ownerToo)) = true ↔
      Json.obj (if list then Relationship.listSchema owner
        else Relationship.referenceSchema owner) =
        .obj (if listToo then Relationship.listSchema ownerToo
          else Relationship.referenceSchema ownerToo) := by
    intro list listToo
    cases list <;> cases listToo <;>
      simp [Relationship.listSchema, Relationship.referenceSchema, Json.sameValue, Json.sameFields,
        Keyed.get?]
  exact same _ _

namespace BackrefGroups

variable {groups next : BackrefGroups} {entry : ReverseProperty}
  {entries others : List ReverseProperty}

/-- The schema with which a property of an entity is implied. -/
def reverse? (groups : BackrefGroups) (model property : String) : Option Json :=
  (Keyed.get? groups model).bind (Keyed.get? · property)

/-- Groups that have some implied properties and no others. -/
structure Collects (groups : BackrefGroups) (entries : List ReverseProperty) : Prop where
  reverses : ∀ model property schema, groups.reverse? model property = some schema ↔
    ⟨model, property, schema⟩ ∈ entries
  models : ∀ model ∈ Keyed.keys groups, ∃ entry ∈ entries, entry.model = model

theorem collects_nil : Collects [] [] := ⟨by simp [reverse?], by simp⟩

/-- The property is implied anew, or again with the same schema. -/
theorem add_eq_ok (added : groups.add entry = .ok next) :
    (groups.reverse? entry.model entry.property = none ∧
      next = Keyed.set groups entry.model
        (Keyed.set ((Keyed.get? groups entry.model).getD []) entry.property entry.schema)) ∨
    (∃ existing, groups.reverse? entry.model entry.property = some existing ∧
      (existing == entry.schema) = true ∧ next = groups) := by
  have listed : groups.reverse? entry.model entry.property =
      Keyed.get? ((Keyed.get? groups entry.model).getD []) entry.property := by
    unfold reverse?
    cases Keyed.get? groups entry.model <;> rfl
  rw [listed]
  unfold add at added
  dsimp only at added
  split at added
  · rename_i absent
    exact .inl ⟨absent, (Except.ok.inj added).symm⟩
  · rename_i existing present
    split at added
    · rename_i same
      exact .inr ⟨existing, present, same, (Except.ok.inj added).symm⟩
    · cases added

theorem reverse?_set (model property : String) (schema : Json) (other wanted : String) :
    reverse? (Keyed.set groups model
        (Keyed.set ((Keyed.get? groups model).getD []) property schema)) other wanted =
      if other = model ∧ wanted = property then some schema else groups.reverse? other wanted := by
  unfold reverse?
  rw [Keyed.get?_set]
  by_cases sameModel : other = model
  · subst sameModel
    rw [if_pos rfl, Option.bind_some, Keyed.get?_set]
    by_cases sameProperty : wanted = property
    · simp [sameProperty]
    · cases Keyed.get? groups other <;> simp [sameProperty]
  · simp [sameModel]

theorem Collects.add (collects : groups.Collects entries)
    (reverses : ∀ other ∈ entries, IsReverse other.schema) (isReverse : IsReverse entry.schema)
    (added : groups.add entry = .ok next) : next.Collects (entries ++ [entry]) := by
  rcases add_eq_ok added with ⟨absent, rfl⟩ | ⟨existing, present, same, rfl⟩
  · constructor
    · intro model property schema
      rw [reverse?_set, List.mem_append, List.mem_singleton]
      by_cases isEntry : model = entry.model ∧ property = entry.property
      · obtain ⟨rfl, rfl⟩ := isEntry
        have fresh : ⟨entry.model, entry.property, schema⟩ ∉ entries := by
          intro before
          cases absent.symm.trans ((collects.reverses _ _ _).mpr before)
        simp only [and_self, if_true, Option.some.injEq, fresh, false_or]
        constructor
        · rintro rfl
          rfl
        · intro same
          rw [← same]
      · have different : ⟨model, property, schema⟩ ≠ entry := by
          rintro rfl
          exact isEntry ⟨rfl, rfl⟩
        rw [if_neg isEntry, collects.reverses]
        simp [different]
    · intro model member
      rcases (Keyed.mem_keys_set _ _ _ _).mp member with rfl | before
      · exact ⟨entry, by simp, rfl⟩
      · obtain ⟨other, inEntries, named⟩ := collects.models model before
        exact ⟨other, by simp [inEntries], named⟩
  · have before := (collects.reverses _ _ _).mp present
    have sameSchema := ((reverses _ before).beq_iff isReverse).mp same
    dsimp only at sameSchema
    subst sameSchema
    constructor
    · intro model property schema
      rw [collects.reverses, List.mem_append, List.mem_singleton]
      constructor
      · exact .inl
      · rintro (inEntries | rfl)
        · exact inEntries
        · exact before
    · intro model member
      obtain ⟨other, inEntries, named⟩ := collects.models model member
      exact ⟨other, by simp [inEntries], named⟩

theorem Collects.foldlM (collects : groups.Collects entries)
    (reverses : ∀ other ∈ entries ++ others, IsReverse other.schema)
    (folded : others.foldlM BackrefGroups.add groups = .ok next) :
    next.Collects (entries ++ others) := by
  induction others generalizing groups entries with
  | nil =>
    obtain rfl := Except.ok.inj folded
    simpa using collects
  | cons entry rest ih =>
    rw [List.foldlM_cons] at folded
    obtain ⟨middle, added, folded⟩ := bind_eq_ok.mp folded
    have here := collects.add (fun other member => reverses other (by simp [member]))
      (reverses entry (by simp)) added
    have later := ih here (fun other member => reverses other (by simpa using member)) folded
    simpa using later

/-- No property is implied with two schemas. -/
def Agree (entries : List ReverseProperty) : Prop :=
  ∀ entry ∈ entries, ∀ other ∈ entries, entry.model = other.model →
    entry.property = other.property → entry.schema = other.schema

/-- Properties that are not implied with two schemas are all collected. -/
theorem Collects.exists_foldlM (collects : groups.Collects entries)
    (reverses : ∀ other ∈ entries ++ others, IsReverse other.schema)
    (agree : Agree (entries ++ others)) :
    ∃ next, others.foldlM BackrefGroups.add groups = .ok next := by
  induction others generalizing groups entries with
  | nil => exact ⟨groups, rfl⟩
  | cons entry rest ih =>
    obtain ⟨middle, added⟩ : ∃ middle, groups.add entry = .ok middle := by
      have listed : groups.reverse? entry.model entry.property =
          Keyed.get? ((Keyed.get? groups entry.model).getD []) entry.property := by
        unfold reverse?
        cases Keyed.get? groups entry.model <;> rfl
      unfold BackrefGroups.add
      dsimp only
      rw [← listed]
      cases present : groups.reverse? entry.model entry.property with
      | none => exact ⟨_, rfl⟩
      | some existing =>
        have before := (collects.reverses _ _ _).mp present
        have same : existing = entry.schema :=
          agree _ (List.mem_append_left _ before) entry (by simp) rfl rfl
        have isReverse := reverses entry (by simp)
        have sameValue : (existing == entry.schema) = true :=
          same ▸ (isReverse.beq_iff isReverse).mpr rfl
        exact ⟨groups, if_pos sameValue⟩
    have here := collects.add (fun other member => reverses other (by simp [member]))
      (reverses entry (by simp)) added
    obtain ⟨next, folded⟩ := ih here (fun other member => reverses other (by simpa using member))
      (by simpa using agree)
    exact ⟨next, by rw [List.foldlM_cons, added, ok_bind, folded]⟩

end BackrefGroups

namespace Registry

variable {registry : Registry} {owner name : String} {schema : Json}

/-- The same is implied in both registries, in the same order if the entities are. -/
theorem Dresses.backrefGroups {base dressed : Registry} {additions : String → Additions}
    (dresses : base.Dresses additions dressed) (keyed : base.WellKeyed)
    (typed : base.ObjectsDressed additions) (apart : base.KeysApart additions)
    (names : dressed.names = base.names) : dressed.backrefGroups = base.backrefGroups := by
  have paired := Keyed.forall₂_of_keys_eq keyed.entries names.symm
  refine (foldlM_eq_of_forall₂ (paired.imp ?_) []).symm
  rintro ⟨name, schema⟩ ⟨_, other⟩ ⟨rfl, registered, registeredToo⟩ groups
  have laid : other = (additions name).apply schema := by
    have found : dressed.get? name = some other := registeredToo
    have registered : base.get? name = some schema := registered
    rw [dresses.get?, registered] at found
    exact (Option.some.inj found).symm
  dsimp only at registered
  rw [groupEntity, groupEntity, laid, dresses.entityBackrefs keyed typed apart registered]

/-- An entity implies a property of another one. -/
def Implies (registry : Registry) (model property : String) (schema : Json) : Prop :=
  ∃ entity ∈ registry.entries, ∃ entries,
    registry.entityBackrefs entity.1 entity.2 = .ok entries ∧ ⟨model, property, schema⟩ ∈ entries

theorem Implies.isReverse {model property : String} (implied : registry.Implies model property schema) :
    IsReverse schema := by
  obtain ⟨entity, -, entries, found, member⟩ := implied
  obtain ⟨own, -, property, -, relationship, backref, -, -, same⟩ := mem_entityBackrefs found _ member
  exact ⟨entity.1, relationship, congrArg ReverseProperty.schema same⟩

/-- The properties of an entity stay within the registry as the entity does. -/
theorem RefersLocally.of_ownSchema {name : String} {own : OwnSchema}
    (references : registry.RefersLocally) (inSchema : schema.refersLocally = true)
    (found : registry.ownSchema name schema = .ok own) :
    ∀ property ∈ propertiesIn own.fields, property.2.refersLocally = true := by
  intro property declared
  obtain ⟨-, flat, flattened, sameFields⟩ := ownSchema_eq_ok.mp found
  have inOwn : (Json.obj own.fields).refersLocally = true :=
    sameFields ▸ references.of_derives (derives_of_flattenFrom flattened) inSchema
  unfold propertiesIn at declared
  cases written : Keyed.get? own.fields "properties" with
  | none => simp [written] at declared
  | some value =>
    have inValue := Json.refersLocally_of_get? inOwn written
    cases value with
    | obj fields =>
      rw [written] at declared
      exact Json.refersLocally_of_field ((Json.refersLocally_obj fields).mp inValue _ declared)
    | _ => simp [written, Json.fields?] at declared

/-- Properties are implied on entities of the registry. -/
theorem Implies.isObjectEntity {model property : String} (references : registry.RefersLocally)
    (implied : registry.Implies model property schema) : registry.IsObjectEntity model := by
  obtain ⟨entity, registered, entries, found, member⟩ := implied
  obtain ⟨own, isOwn, property, declared, relationship, backref, gathered, -, same⟩ :=
    mem_entityBackrefs found _ member
  have inProperty := references.of_ownSchema (references _ registered) isOwn property declared
  have sameModel : model = relationship.modelName := congrArg ReverseProperty.model same
  rw [sameModel]
  exact references.of_gather? inProperty gathered

/-- The groups of a registry have what its entities imply. -/
theorem groups_of_entities {entities : Keyed Json} {groups next : BackrefGroups}
    {before : List ReverseProperty}
    (folded : entities.foldlM registry.groupEntity groups = .ok next)
    (collects : groups.Collects before) (reverses : ∀ other ∈ before, IsReverse other.schema)
    (registered : entities ⊆ registry.entries) :
    ∃ lists, List.Forall₂ (fun entity entries =>
        registry.entityBackrefs entity.1 entity.2 = .ok entries) entities lists ∧
      next.Collects (before ++ lists.flatten) := by
  induction entities generalizing groups before with
  | nil =>
    obtain rfl := Except.ok.inj folded
    exact ⟨[], .nil, by simpa using collects⟩
  | cons entity rest ih =>
    obtain ⟨isEntity, inRest⟩ := List.cons_subset.mp registered
    rw [List.foldlM_cons] at folded
    obtain ⟨middle, grouped, folded⟩ := bind_eq_ok.mp folded
    obtain ⟨entries, found, added⟩ := bind_eq_ok.mp grouped
    have reversesHere : ∀ other ∈ before ++ entries, IsReverse other.schema := by
      intro other member
      rcases List.mem_append.mp member with earlier | here
      · exact reverses other earlier
      · exact Implies.isReverse ⟨entity, isEntity, entries, found, here⟩
    obtain ⟨lists, each, all⟩ := ih folded (collects.foldlM reversesHere added) reversesHere inRest
    exact ⟨entries :: lists, .cons found each, by simpa using all⟩

theorem exists_groups_of_entities {entities : Keyed Json} {groups : BackrefGroups}
    {before : List ReverseProperty} {lists : List (List ReverseProperty)}
    (each : List.Forall₂ (fun entity entries =>
      registry.entityBackrefs entity.1 entity.2 = .ok entries) entities lists)
    (collects : groups.Collects before)
    (reverses : ∀ other ∈ before ++ lists.flatten, IsReverse other.schema)
    (agree : BackrefGroups.Agree (before ++ lists.flatten)) :
    ∃ next, entities.foldlM registry.groupEntity groups = .ok next := by
  induction each generalizing groups before with
  | nil => exact ⟨groups, rfl⟩
  | @cons entity entries rest lists found _ ih =>
    rw [List.flatten_cons, ← List.append_assoc] at reverses agree
    have reversesHere := fun other (member : other ∈ before ++ entries) =>
      reverses other (List.mem_append_left _ member)
    obtain ⟨middle, added⟩ := collects.exists_foldlM reversesHere
      fun other member another memberToo =>
        agree other (List.mem_append_left _ member) another (List.mem_append_left _ memberToo)
    obtain ⟨next, folded⟩ := ih (collects.foldlM reversesHere added) reverses agree
    refine ⟨next, ?_⟩
    rw [List.foldlM_cons, groupEntity, found, ok_bind, added, ok_bind, folded]

/-- The groups of a registry have what is implied and nothing else. -/
structure GroupsOf (registry : Registry) (groups : BackrefGroups) : Prop where
  entities : ∀ entity ∈ registry.entries,
    ∃ entries, registry.entityBackrefs entity.1 entity.2 = .ok entries
  reverses : ∀ model property schema,
    groups.reverse? model property = some schema ↔ registry.Implies model property schema
  models : ∀ model ∈ Keyed.keys groups, ∃ property schema, registry.Implies model property schema

theorem groupsOf_of_backrefGroups {groups : BackrefGroups}
    (found : registry.backrefGroups = .ok groups) : registry.GroupsOf groups := by
  obtain ⟨lists, each, collects⟩ := groups_of_entities found BackrefGroups.collects_nil (by simp)
    (List.Subset.refl _)
  rw [List.nil_append] at collects
  have implied : ∀ entry, entry ∈ lists.flatten ↔
      registry.Implies entry.model entry.property entry.schema := by
    intro entry
    rw [List.mem_flatten]
    constructor
    · rintro ⟨entries, member, inEntries⟩
      obtain ⟨entity, registered, foundHere⟩ := exists_of_forall₂_right each member
      exact ⟨entity, registered, entries, foundHere, inEntries⟩
    · rintro ⟨entity, registered, entries, foundEntries, member⟩
      obtain ⟨others, inLists, foundHere⟩ := exists_of_forall₂_left each registered
      have same := Except.ok.inj (foundEntries.symm.trans foundHere)
      exact ⟨others, inLists, same ▸ member⟩
  refine ⟨fun entity registered => ?_, fun model property schema => ?_, fun model member => ?_⟩
  · obtain ⟨entries, -, foundEntries⟩ := exists_of_forall₂_left each registered
    exact ⟨entries, foundEntries⟩
  · rw [collects.reverses, implied]
  · obtain ⟨entry, inEntries, rfl⟩ := collects.models model member
    exact ⟨entry.property, entry.schema, (implied entry).mp inEntries⟩

/-- What is implied can be grouped if every entity tells what it implies, and no property is implied
with two schemas. -/
theorem exists_backrefGroups (entities : ∀ entity ∈ registry.entries,
      ∃ entries, registry.entityBackrefs entity.1 entity.2 = .ok entries)
    (agree : ∀ model property schema other, registry.Implies model property schema →
      registry.Implies model property other → schema = other) :
    ∃ groups, registry.backrefGroups = .ok groups := by
  obtain ⟨lists, each⟩ : ∃ lists, List.Forall₂ (fun (entity : String × Json) entries =>
      registry.entityBackrefs entity.1 entity.2 = .ok entries) registry.entries lists := by
    generalize registry.entries = list at entities
    induction list with
    | nil => exact ⟨[], .nil⟩
    | cons entity rest ih =>
      obtain ⟨entries, found⟩ := entities entity List.mem_cons_self
      obtain ⟨lists, each⟩ := ih fun other member => entities other (.tail _ member)
      exact ⟨entries :: lists, .cons found each⟩
  have implied : ∀ entry ∈ lists.flatten,
      registry.Implies entry.model entry.property entry.schema := by
    intro entry member
    obtain ⟨entries, inLists, inEntries⟩ := List.mem_flatten.mp member
    obtain ⟨entity, registered, found⟩ := exists_of_forall₂_right each inLists
    exact ⟨entity, registered, entries, found, inEntries⟩
  refine exists_groups_of_entities each BackrefGroups.collects_nil ?_ ?_
  · intro entry member
    exact (implied entry (by simpa using member)).isReverse
  · intro entry member other memberToo sameModel sameProperty
    have one := implied entry (by simpa using member)
    have two := implied other (by simpa using memberToo)
    rw [← sameModel, ← sameProperty] at two
    exact agree _ _ _ _ one two

end Registry

end EntityMapping
