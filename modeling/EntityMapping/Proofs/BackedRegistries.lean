import EntityMapping.Proofs.SettledTables

/-!
Registries that differ in back references. Both have the entities of a third one with the same key
columns, and one of them has back references as well, on entities that amount to objects. Whatever
is read of schemas, back references aside, is the same in both: parents, relationships, association
tables, and whether a key is missing. They stay such registries when the same key is written into
both.
-/

set_option autoImplicit false
set_option relaxedAutoImplicit false

namespace EntityMapping

open Keyed (Distinct)
open ForeignKey (Source Requirement IsKeySchema)
open Registry (wrap propertyFragment backrefFragment)

/-- Additions with the same key columns change a value alike, if back references do not change it. -/
theorem Additions.valueOver_of_keys_eq {one two : Additions} {keyword : String}
    {value : Option Json} (keys : one.keys = two.keys) (bare : one.backrefs = none)
    (kept : ∀ backrefs, two.backrefs = some backrefs →
      laidValue keyword value (Keyed.get? (backrefFragment backrefs) keyword) = value) :
    one.valueOver keyword value = two.valueOver keyword value := by
  unfold valueOver fragments
  rw [List.foldl_append, List.foldl_append, keys, bare]
  cases isSome : two.backrefs with
  | none => rfl
  | some backrefs =>
    have unchanged := kept backrefs isSome
    simp only [Option.map_none, Option.toList_none, List.foldl_nil, Option.map_some,
      Option.toList_some, List.foldl_cons, unchanged]

namespace Registry

/-- A schema amounts to type `object`, at some place of some chain of references. -/
def AmountsToObject (registry : Registry) (schema : Json) : Prop :=
  ∃ hops visited name flat, registry.flattenFrom none hops visited name schema = .ok flat ∧
    Keyed.get? flat.fields "type" = some (.str "object")

theorem AmountsToObject.type {registry : Registry} {schema : Json} {flat : Keyed Json}
    (object : registry.AmountsToObject schema) (derivation : registry.Derives none schema flat) :
    Keyed.get? flat "type" = some (.str "object") := by
  obtain ⟨_, _, _, other, flattened, typed⟩ := object
  exact derivation.unique (derives_of_flattenFrom flattened) ▸ typed

theorem AmountsToObject.of_isObjectEntity {registry : Registry} {name : String} {schema : Json}
    (references : registry.RefersLocally) (object : registry.IsObjectEntity name)
    (registered : registry.get? name = some schema) : registry.AmountsToObject schema := by
  obtain ⟨_, flat, registeredToo, -, derivation, typed⟩ := object
  obtain rfl := Option.some.inj (registered.symm.trans registeredToo)
  have inSchema := references _ (Keyed.mem_of_get? registered)
  have found : ∃ found, registry.flattenFrom none registry.chainLimit [] name schema = .ok found ∧
      found.fields = flat :=
    derivation.flattenFrom (references.composedLocally inSchema) (.start registry.length_names_le)
      (by simp)
  obtain ⟨found, flattened, rfl⟩ := found
  exact ⟨_, _, _, found, flattened, typed⟩

end Registry

/-- What amounts to an object still does so when an object is laid over the schema of an entity. -/
theorem Rewriting.amountsToObject {rewriting : Rewriting} {schema : Json}
    (typed : Keyed.get? rewriting.fragment "type" = some (.str "object"))
    (whole : schema.isWellKeyed = true) (object : rewriting.registry.AmountsToObject schema) :
    rewriting.changed.AmountsToObject schema := by
  have joined : ∀ before value : Option Json,
      laidValue "type" before value = value.or before := laidValue_replace (by decide)
  have carries : rewriting.Carries none schema "type"
      (fun value other => other = value ∨ other = some (.str "object")) := by
    refine ⟨by decide, .inl rfl, fun own parts => ⟨rewriting.keyed.distinct whole parts, .inl rfl⟩,
      ?_, ?_⟩
    · intro before before' value value' below above
      rw [joined, joined]
      rcases above with rfl | rfl
      · cases value' with
        | none => exact below
        | some value => exact .inl rfl
      · exact .inr rfl
    · intro flat value _ _ _
      rw [joined, typed]
      exact .inr rfl
  obtain ⟨hops, visited, name, flat, flattened, isObject⟩ := object
  have flats : Alike _ _ (rewriting.changed.flattenFrom none hops visited name schema) :=
    carries.flattenFrom (.self schema)
  rw [flattened] at flats
  obtain ⟨other, flattenedToo, -, -, same⟩ := flats.of_ok_left
  refine ⟨hops, visited, name, other, flattenedToo, ?_⟩
  rcases same with same | same
  · rw [same, isObject]
  · exact same

namespace Registry

/-- Two registries that have the entities of a third one with the same key columns. The second one
has back references as well, on entities that amount to objects in the first one. -/
structure Backed (base plain backed : Registry) (first second : String → Additions) : Prop where
  keyed : base.WellKeyed
  plainKeyed : plain.WellKeyed
  dressesPlain : base.Dresses first plain
  dressesBacked : base.Dresses second backed
  keys : ∀ name, (first name).keys = (second name).keys
  bare : ∀ name, (first name).backrefs = none
  objects : ∀ name schema, (second name).backrefs ≠ none → base.get? name = some schema →
    plain.AmountsToObject schema

/-- What belongs to an entity itself is the same, type and back references aside. -/
def SameOwn (own other : OwnSchema) : Prop :=
  own.parent = other.parent ∧ Distinct own.fields ∧ Distinct other.fields ∧
    ∀ keyword, keyword ∉ ["type", "x-backrefs"] →
      Keyed.get? own.fields keyword = Keyed.get? other.fields keyword

namespace Backed

variable {base plain backed : Registry} {first second : String → Additions}
  {skip : Option String} {name keyword property : String} {schema : Json}

section Reading

variable (backs : base.Backed plain backed first second)

include backs

theorem get?_eq (name : String) :
    (base.get? name = none ∧ plain.get? name = none ∧ backed.get? name = none) ∨
      ∃ schema, base.get? name = some schema ∧
        plain.get? name = some ((first name).apply schema) ∧
        backed.get? name = some ((second name).apply schema) := by
  rw [backs.dressesPlain.get?, backs.dressesBacked.get?]
  cases base.get? name with
  | none => exact .inl ⟨rfl, rfl, rfl⟩
  | some schema => exact .inr ⟨schema, rfl, rfl, rfl⟩

theorem valueOver_eq (notExcepted : keyword ∉ ["type", "x-backrefs"]) (name : String)
    (value : Option Json) :
    (first name).valueOver keyword value = (second name).valueOver keyword value := by
  simp only [List.mem_cons, List.not_mem_nil, or_false, not_or] at notExcepted
  refine Additions.valueOver_of_keys_eq (backs.keys name) (backs.bare name) fun backrefs _ => ?_
  simp [backrefFragment, Keyed.get?_cons, Ne.symm notExcepted.1, Ne.symm notExcepted.2, laidValue]

theorem keeps_silent (whole : schema.isWellKeyed = true)
    (notExcepted : keyword ∉ ["type", "x-backrefs"]) :
    Keeps base plain first second skip schema keyword (· = ·) where
  absent := rfl
  written own follows := ⟨backs.keyed.distinct whole follows.composes, rfl⟩
  laid below above := by rw [below, above]
  added name _ flat value _ _ _ same := by rw [← same, backs.valueOver_eq notExcepted]

/-- Nothing but back references tells the registries apart where no parent is skipped. -/
theorem keeps_typed (whole : schema.isWellKeyed = true) (notBackrefs : keyword ≠ "x-backrefs") :
    Keeps base plain first second none schema keyword (· = ·) := by
  by_cases isType : keyword = "type"
  · subst isType
    refine ⟨rfl, fun own follows => ⟨backs.keyed.distinct whole follows.composes, rfl⟩,
      fun below above => by rw [below, above], fun name entry flat value registered _ derivation
        same => ?_⟩
    rw [← same]
    refine Additions.valueOver_of_keys_eq (backs.keys name) (backs.bare name)
      fun backrefs isSome => ?_
    rw [(backs.objects name entry (by simp [isSome]) registered).type derivation]
    rfl
  · exact backs.keeps_silent whole (by simp [isType, notBackrefs])

theorem flattenWithout (whole : schema.isWellKeyed = true) :
    Alike (SameBut ["type", "x-backrefs"]) (plain.flattenWithout skip name schema)
      (backed.flattenWithout skip name schema) := by
  exact Keeps.flattenWithout_sameBut backs.dressesPlain backs.dressesBacked ⟨"x-tablename", by decide⟩
    fun _ notExcepted => backs.keeps_silent whole notExcepted

/-- A schema amounts to the same in both registries, back references aside. -/
theorem flatten (whole : schema.isWellKeyed = true) :
    Alike (SameBut ["x-backrefs"]) (plain.flatten name schema) (backed.flatten name schema) := by
  exact Keeps.flattenWithout_sameBut backs.dressesPlain backs.dressesBacked ⟨"x-tablename", by decide⟩
    fun _ notExcepted => backs.keeps_typed whole (by simpa using notExcepted)

theorem flattenEntry (registered : base.get? name = some schema) :
    Alike (SameBut ["type", "x-backrefs"])
      (plain.flattenWithout skip name ((first name).apply schema))
      (backed.flattenWithout skip name ((second name).apply schema)) := by
  rw [Dresses.flattenWithout_apply (backs.dressesPlain.named _ _ registered),
    Dresses.flattenWithout_apply (backs.dressesBacked.named _ _ registered)]
  refine (backs.flattenWithout (backs.keyed.of_get? registered)).map fun flat other same => ?_
  obtain ⟨sameName, distinct, distinctToo, sameWords⟩ := same
  refine ⟨sameName, Additions.distinct_laidOn distinct, Additions.distinct_laidOn distinctToo,
    fun keyword notExcepted => ?_⟩
  dsimp only
  rw [Additions.get?_laidOn distinct, Additions.get?_laidOn distinctToo,
    sameWords keyword notExcepted, backs.valueOver_eq notExcepted]

/-- Every entity has the same parent and the same of its own. -/
theorem ownSchema (registered : base.get? name = some schema) :
    Alike SameOwn (plain.ownSchema name ((first name).apply schema))
      (backed.ownSchema name ((second name).apply schema)) := by
  have whole := backs.keyed.of_get? registered
  unfold Registry.ownSchema
  rw [backs.dressesPlain.parent? backs.keyed whole (backs.dressesPlain.named _ _ registered),
    backs.dressesBacked.parent? backs.keyed whole (backs.dressesBacked.named _ _ registered)]
  refine (Alike.refl _).bind fun parent _ sameParent => ?_
  subst sameParent
  exact (backs.flattenEntry registered).bind fun flat other same => .ok ⟨rfl, same.2⟩

theorem effective? (notAdded : keyword ∉ Additions.keywords) (notFragments : keyword ≠ "allOf") :
    backed.effective? schema keyword = plain.effective? schema keyword := by
  have one : plain.effective? (Additions.nothing.apply schema) keyword = _ :=
    backs.dressesPlain.effective? notAdded notFragments
  have two : backed.effective? (Additions.nothing.apply schema) keyword = _ :=
    backs.dressesBacked.effective? notAdded notFragments
  exact two.trans one.symm

/-- A property is the same relationship in both registries, or none in either. -/
theorem gather? (property : String) (whole : schema.isWellKeyed = true) :
    backed.gather? property schema = plain.gather? property schema :=
  gather?_congr (fun whole => (backs.flatten whole).mono fun _ _ same => same.mono (by simp))
    (fun _ => backs.effective?) property whole

/-- The fields of a flat entity have pairwise different keys throughout. -/
theorem isWellKeyed_of_flatten {flat : FlatSchema}
    (registered : plain.get? name = some schema)
    (flattened : plain.flattenWithout skip name schema = .ok flat) :
    (Json.obj flat.fields).isWellKeyed = true :=
  backs.plainKeyed.of_derives (derives_of_flattenFrom flattened) (backs.plainKeyed.of_get? registered)

theorem primaryKeysOf {properties : Keyed Json}
    (whole : ∀ field ∈ properties, field.2.isWellKeyed = true) :
    Alike (List.Forall₂ fun key other => key.1 = other.1 ∧ SameBut ["x-backrefs"] key.2 other.2)
      (plain.primaryKeysOf properties) (backed.primaryKeysOf properties) := by
  induction properties with
  | nil => exact .ok .nil
  | cons field rest ih =>
    obtain ⟨property, schema⟩ := field
    obtain ⟨here, later⟩ := List.forall_mem_cons.mp whole
    refine (backs.flatten here).bind fun flat other same => ?_
    rw [(same.mono (by simp)).primaryKey?]
    refine (Alike.refl _).bind fun isKey _ sameKey => ?_
    subst sameKey
    refine (ih later).bind fun keys others each => ?_
    split
    · exact .ok (.cons ⟨rfl, same⟩ each)
    · exact .ok each

/-- The column of an association table for an entity is the same in both registries. -/
theorem associationSide {secondary : String} {side other : AssociationColumn}
    (found : plain.associationSide secondary name = .ok side)
    (foundToo : backed.associationSide secondary name = .ok other) : side = other := by
  obtain ⟨schema, flat, tablename, property, key, registered, flattened, named, isKey, isColumn⟩ :=
    associationSide_eq_ok.mp found
  obtain ⟨schemaToo, flatToo, tablenameToo, propertyToo, keyToo, registeredToo, flattenedToo,
    namedToo, isKeyToo, isColumnToo⟩ := associationSide_eq_ok.mp foundToo
  rcases backs.get?_eq name with ⟨-, absent, -⟩ | ⟨original, inBase, inPlain, inBacked⟩
  · cases absent.symm.trans registered
  obtain rfl := Option.some.inj (inPlain.symm.trans registered)
  obtain rfl := Option.some.inj (inBacked.symm.trans registeredToo)
  have same := (backs.flattenEntry inBase).related_of_ok flattened flattenedToo
  have sameTable : flat.keywords.tablename? = flatToo.keywords.tablename? := same.as (by decide)
  obtain rfl := Option.some.inj (Except.ok.inj (named.symm.trans (sameTable.trans namedToo)))
  have properties : propertiesIn flat.fields = propertiesIn flatToo.fields := by
    rw [propertiesIn, propertiesIn, same.2.2.2 "properties" (by decide)]
  rw [← properties] at isKeyToo
  have whole := backs.isWellKeyed_of_flatten registered flattened
  have keys := (backs.primaryKeysOf fun _ => isWellKeyed_of_mem_propertiesIn whole).related_of_ok
    isKey isKeyToo
  obtain ⟨⟨rfl, sameKey⟩, -⟩ := List.forall₂_cons.mp keys
  have column : associationColumn tablename property key =
      associationColumn tablename property keyToo := associationColumn_congr (sameKey.mono (by simp))
  exact Except.ok.inj (isColumn.symm.trans (column.trans isColumnToo))

/-- Association tables are the same in both registries. -/
theorem association {secondary left right : String} {table other : AssociationTable}
    (found : plain.association secondary left right = .ok table)
    (foundToo : backed.association secondary left right = .ok other) : table = other := by
  obtain ⟨one, two, foundOne, foundTwo, -, rfl⟩ := association_eq_ok.mp found
  obtain ⟨oneToo, twoToo, foundOneToo, foundTwoToo, -, rfl⟩ := association_eq_ok.mp foundToo
  rw [backs.associationSide foundOne foundOneToo, backs.associationSide foundTwo foundTwoToo]

theorem flatProperty? {entity other : Keyed Json} (whole : (Json.obj entity).isWellKeyed = true)
    (same : Keyed.get? entity "properties" = Keyed.get? other "properties") :
    Alike (Option.Rel (SameBut ["x-backrefs"])) (plain.flatProperty? entity property)
      (backed.flatProperty? other property) :=
  flatProperty?_congr backs.flatten whole (by rw [propertiesIn, propertiesIn, same])

/-- The column that a key points at is the same in both registries. -/
theorem keySource {owning column : String} {source other : Source}
    (found : plain.keySource owning column = .ok source)
    (foundToo : backed.keySource owning column = .ok other) : SameSource source other := by
  obtain ⟨schema, owner, registered, flattened, named, referenced, typed, -⟩ :=
    keySource_eq_ok.mp found
  obtain ⟨schemaToo, ownerToo, registeredToo, flattenedToo, namedToo, referencedToo, typedToo, -⟩ :=
    keySource_eq_ok.mp foundToo
  rcases backs.get?_eq owning with ⟨-, absent, -⟩ | ⟨original, inBase, inPlain, inBacked⟩
  · cases absent.symm.trans registered
  obtain rfl := Option.some.inj (inPlain.symm.trans registered)
  obtain rfl := Option.some.inj (inBacked.symm.trans registeredToo)
  have same := (backs.flattenEntry inBase).related_of_ok flattened flattenedToo
  have sameTable : owner.keywords.tablename? = ownerToo.keywords.tablename? := same.as (by decide)
  have whole := backs.isWellKeyed_of_flatten registered flattened
  have flats := (backs.flatProperty? whole (same.2.2.2 "properties" (by decide))).related_of_ok
    referenced referencedToo
  cases flats with
  | some sameColumn =>
    have sameType : source.referenced.keywords.primitiveType =
        other.referenced.keywords.primitiveType := (sameColumn.mono (by simp)).primitiveType
    exact ⟨Option.some.inj (Except.ok.inj (named.symm.trans (sameTable.trans namedToo))),
      Except.ok.inj (typed.symm.trans (sameType.trans typedToo)),
      sameColumn.mono (by simp)⟩

/-- Whether a key is missing is the same in both registries, and so is the key. -/
theorem foreignKey {target owning column : String} {nullable : Option Bool}
    {requirement other : Requirement}
    (required : plain.foreignKey target owning column nullable = .ok requirement)
    (requiredToo : backed.foreignKey target owning column nullable = .ok other) :
    requirement = other := by
  rw [foreignKey_eq] at required requiredToo
  obtain ⟨own, ownFound, required⟩ := bind_eq_ok.mp required
  obtain ⟨source, sourceFound, required⟩ := bind_eq_ok.mp required
  obtain ⟨existing, isExisting, required⟩ := bind_eq_ok.mp required
  obtain ⟨ownToo, ownFoundToo, requiredToo⟩ := bind_eq_ok.mp requiredToo
  obtain ⟨sourceToo, sourceFoundToo, requiredToo⟩ := bind_eq_ok.mp requiredToo
  obtain ⟨existingToo, isExistingToo, requiredToo⟩ := bind_eq_ok.mp requiredToo
  obtain ⟨schema, isEntry, ownFound⟩ := bind_eq_ok.mp ownFound
  obtain ⟨schemaToo, isEntryToo, ownFoundToo⟩ := bind_eq_ok.mp ownFoundToo
  have registered := registered_eq_ok.mp isEntry
  rcases backs.get?_eq target with ⟨-, absent, -⟩ | ⟨original, inBase, inPlain, inBacked⟩
  · cases absent.symm.trans registered
  obtain rfl := Option.some.inj (inPlain.symm.trans registered)
  obtain rfl := Option.some.inj (inBacked.symm.trans (registered_eq_ok.mp isEntryToo))
  have sameOwn := (backs.ownSchema inBase).related_of_ok ownFound ownFoundToo
  have sameSource := backs.keySource sourceFound sourceFoundToo
  obtain ⟨-, flat, flattened, isFlat⟩ := ownSchema_eq_ok.mp ownFound
  have whole : (Json.obj own.fields).isWellKeyed = true :=
    isFlat ▸ backs.isWellKeyed_of_flatten registered flattened
  rw [← sameSource.property_eq] at isExistingToo
  have flats := (backs.flatProperty? whole
    (sameOwn.2.2.2 "properties" (by decide))).related_of_ok isExisting isExistingToo
  cases flats with
  | some sameColumn =>
    obtain ⟨-, -, rfl⟩ := checkExistingKey_eq_ok.mp required
    obtain ⟨-, -, rfl⟩ := checkExistingKey_eq_ok.mp requiredToo
    rw [sameSource.property_eq]
  | none =>
    exact Except.ok.inj (required.symm.trans ((sameSource.missingKey_eq _ _).trans requiredToo))

end Reading

section Writing

variable {target owning column : String} {nullable : Option Bool} {fields : Keyed Json}
  {key : Column} {other : Json}

/-- The entities with back references still amount to objects when a key is written. -/
theorem objects_written (backs : base.Backed plain backed first second)
    (required : plain.foreignKey target owning column nullable =
      .ok (.missing property (.obj fields) key)) (entry : plain.get? target = some schema) :
    (plain.insert target (wrap schema (propertyFragment property (.obj fields)))).WellKeyed ∧
      ∀ name schemaThere, (second name).backrefs ≠ none → base.get? name = some schemaThere →
        (plain.insert target
          (wrap schema (propertyFragment property (.obj fields)))).AmountsToObject schemaThere := by
  obtain ⟨_, same, isMissing⟩ := isMissing_of_foreignKey required
  obtain rfl := Json.obj.inj same
  obtain ⟨type, pointsAt, isKey, -⟩ := isMissing.isKeySchema
  let rewriting := Rewriting.ofKey property backs.plainKeyed entry isKey
  refine ⟨rewriting.keyed_changed, fun name schemaThere isSome registered => ?_⟩
  exact rewriting.amountsToObject rfl (backs.keyed.of_get? registered)
    (backs.objects name schemaThere isSome registered)

/-- A key that is missing is not among those that have been written. -/
theorem fresh (backs : base.Backed plain backed first second)
    (required : plain.foreignKey target owning column nullable =
      .ok (.missing property (.obj fields) key))
    (registered : base.get? target = some schema) : property ∉ Keyed.keys (first target).keys := by
  obtain ⟨own, source, ownFound, -, rfl, missing, -⟩ := foreignKey_eq_missing.mp required
  obtain ⟨_, isEntry, ownFound⟩ := bind_eq_ok.mp ownFound
  have entry := registered_eq_ok.mp isEntry
  rw [backs.dressesPlain.get?, registered, Option.map_some] at entry
  obtain rfl := Option.some.inj entry
  obtain ⟨-, flat, flattened, sameFields⟩ := ownSchema_eq_ok.mp ownFound
  exact fresh_of_flatProperty? (first target).distinct flattened (sameFields ▸ missing)

/-- A key that is written is one more addition on both sides. -/
theorem write_entity {original : Json} (backs : base.Backed plain backed first second)
    (registered : base.get? target = some original) (noReference : original.get? "$ref" = none)
    (fresh : property ∉ Keyed.keys (first target).keys)
    (points : ∃ pointsAt, Keyed.get? fields "x-foreign-key" = some (.str pointsAt))
    (keyed : (plain.insert target (wrap ((first target).apply original)
      (propertyFragment property (.obj fields)))).WellKeyed)
    (objects : ∀ name schema, (second name).backrefs ≠ none → base.get? name = some schema →
      (plain.insert target (wrap ((first target).apply original)
        (propertyFragment property (.obj fields)))).AmountsToObject schema) :
    ∃ first' second', base.Backed
      (plain.insert target (wrap ((first target).apply original)
        (propertyFragment property (.obj fields))))
      (backed.insert target (wrap ((second target).apply original)
        (propertyFragment property (.obj fields)))) first' second' := by
  have freshToo : property ∉ Keyed.keys (second target).keys := backs.keys target ▸ fresh
  have one := backs.dressesPlain.insert registered noReference
    ((first target).addKey property fields fresh points)
  have two := backs.dressesBacked.insert registered noReference
    ((second target).addKey property fields freshToo points)
  rw [Additions.apply_addKey] at one two
  refine ⟨_, _, backs.keyed, keyed, one, two, fun name => ?_, fun name => ?_,
    fun name schema isSome => objects name schema ?_⟩
  · by_cases same : name = target
    · simp [same, Additions.addKey, backs.keys]
    · simp [same, backs.keys]
  · by_cases same : name = target
    · simp [same, Additions.addKey, backs.bare]
    · simp [same, backs.bare]
  · by_cases same : name = target
    · simpa [same, Additions.addKey] using isSome
    · simpa [same] using isSome

/-- An entity that is only a reference has no additions, and it gets the same schema on all sides. -/
theorem write_reference {original changed : Json} (backs : base.Backed plain backed first second)
    (registered : base.get? target = some original) (isReference : original.get? "$ref" ≠ none)
    (keyed : (plain.insert target changed).WellKeyed)
    (objects : ∀ name schema, (second name).backrefs ≠ none → base.get? name = some schema →
      (plain.insert target changed).AmountsToObject schema) :
    Backed (base.insert target changed) (plain.insert target changed)
      (backed.insert target changed) first second := by
  have bare := (backs.dressesPlain.named _ _ registered).resolve_right isReference
  have bareToo := (backs.dressesBacked.named _ _ registered).resolve_right isReference
  refine ⟨backs.keyed.insert _ (keyed.of_get? (Keyed.get?_set_self _ _ _)), keyed,
    backs.dressesPlain.insert_base registered bare _,
    backs.dressesBacked.insert_base registered bareToo _, backs.keys, backs.bare,
    fun name schema isSome found => objects name schema isSome ?_⟩
  have other : name ≠ target := by
    rintro rfl
    obtain ⟨backrefs, some⟩ := Option.ne_none_iff_exists'.mp isSome
    simp [Additions.fragments, some] at bareToo
  rwa [Registry.insert, Registry.get?, Keyed.get?_set_of_ne _ _ other] at found

/-- The registries stay such registries when a key that is missing is written into both. -/
theorem write (backs : base.Backed plain backed first second)
    (required : plain.foreignKey target owning column nullable =
      .ok (.missing property (.obj fields) key))
    (entry : plain.get? target = some schema) (entryToo : backed.get? target = some other) :
    ∃ base first second, Backed base
      (plain.insert target (wrap schema (propertyFragment property (.obj fields))))
      (backed.insert target (wrap other (propertyFragment property (.obj fields)))) first second := by
  obtain ⟨keyed, objects⟩ := backs.objects_written required entry
  rcases backs.get?_eq target with ⟨-, absent, -⟩ | ⟨original, inBase, inPlain, inBacked⟩
  · cases absent.symm.trans entry
  obtain rfl := Option.some.inj (inPlain.symm.trans entry)
  obtain rfl := Option.some.inj (inBacked.symm.trans entryToo)
  by_cases noReference : original.get? "$ref" = none
  · obtain ⟨_, same, isMissing⟩ := isMissing_of_foreignKey required
    obtain rfl := Json.obj.inj same
    obtain ⟨type, pointsAt, isKey, -⟩ := isMissing.isKeySchema
    exact ⟨base, backs.write_entity inBase noReference (backs.fresh required inBase)
      ⟨pointsAt, isKey.pointsAt⟩ keyed objects⟩
  · have bare := (backs.dressesPlain.named _ _ inBase).resolve_right noReference
    have bareToo := (backs.dressesBacked.named _ _ inBase).resolve_right noReference
    have isOriginal : (first target).apply original = original := by
      rw [Additions.apply_eq, bare, List.foldl_nil]
    have isOriginalToo : (second target).apply original = original := by
      rw [Additions.apply_eq, bareToo, List.foldl_nil]
    rw [isOriginal] at keyed objects ⊢
    rw [isOriginalToo]
    exact ⟨_, _, _, backs.write_reference inBase noReference keyed objects⟩

/-- Ensuring a key leaves such registries, and changes the models on both sides alike. -/
theorem ensureForeignKey {next nextToo : Registry} {store storeToo after afterToo : ModelStore}
    (backs : base.Backed plain backed first second)
    (built : ModelStore.isBuilt storeToo target = ModelStore.isBuilt store target)
    (has : ∀ property, ModelStore.hasProperty storeToo target property =
      ModelStore.hasProperty store target property)
    (ensured : plain.ensureForeignKey store target owning column nullable = .ok (next, after))
    (ensuredToo : backed.ensureForeignKey storeToo target owning column nullable =
      .ok (nextToo, afterToo)) :
    (∃ base first second, Backed base next nextToo first second) ∧
      ((after = store ∧ afterToo = storeToo) ∨ ∃ property schema key,
        after = ModelStore.update (fun model => model.addColumn property schema key) target store ∧
        afterToo =
          ModelStore.update (fun model => model.addColumn property schema key) target storeToo) := by
  obtain ⟨requirement, required, -⟩ := bind_eq_ok.mp ensured
  obtain ⟨_, requiredToo, -⟩ := bind_eq_ok.mp ensuredToo
  obtain rfl := backs.foreignKey required requiredToo
  cases requirement with
  | satisfied property =>
    rw [ensureForeignKey_of_satisfied store required, Except.ok.injEq, Prod.mk.injEq] at ensured
    rw [ensureForeignKey_of_satisfied storeToo requiredToo, Except.ok.injEq, Prod.mk.injEq]
      at ensuredToo
    obtain ⟨rfl, rfl⟩ := ensured
    obtain ⟨rfl, rfl⟩ := ensuredToo
    exact ⟨⟨_, _, _, backs⟩, .inl ⟨rfl, rfl⟩⟩
  | missing property schema key =>
    obtain ⟨fields, rfl, -⟩ := isMissing_of_foreignKey required
    rcases backs.get?_eq target with ⟨-, absent, -⟩ | ⟨original, -, entry, entryToo⟩
    · obtain ⟨schema, registered⟩ := exists_entry_of_foreignKey required
      cases absent.symm.trans registered
    rw [ensureForeignKey_of_missing store required entry, Except.ok.injEq] at ensured
    rw [ensureForeignKey_of_missing storeToo requiredToo entryToo, built, has, Except.ok.injEq]
      at ensuredToo
    by_cases isBuilt : ModelStore.isBuilt store target = true
    · rw [if_pos isBuilt, Prod.mk.injEq] at ensured ensuredToo
      obtain ⟨rfl, changed⟩ := ensured
      obtain ⟨rfl, changedToo⟩ := ensuredToo
      refine ⟨⟨_, _, _, backs⟩, ?_⟩
      by_cases isThere : ModelStore.hasProperty store target property = true
      · rw [if_pos isThere] at changed changedToo
        exact .inl ⟨changed.symm, changedToo.symm⟩
      · rw [if_neg isThere] at changed changedToo
        exact .inr ⟨property, _, key, changed.symm, changedToo.symm⟩
    · rw [if_neg isBuilt, Prod.mk.injEq] at ensured ensuredToo
      obtain ⟨rfl, rfl⟩ := ensured
      obtain ⟨rfl, rfl⟩ := ensuredToo
      exact ⟨backs.write required entry entryToo, .inl ⟨rfl, rfl⟩⟩

end Writing

end Backed

end Registry

end EntityMapping
