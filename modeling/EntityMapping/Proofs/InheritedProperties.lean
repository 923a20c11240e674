import EntityMapping.Proofs.JoinedFields
import EntityMapping.Proofs.LocalComposition
import EntityMapping.Proofs.ModelNames
import EntityMapping.Proofs.WellKeyed

/-!
What an entity inherits, and what belongs to itself. The parent of an entity is passed over wherever
the entity is composed of it, be it several times, far down, or through an entity that other
fragments share. Where all properties are objects, nothing is lost and nothing is changed by that:
the properties of the whole entity are its own ones and those of its parent, and each has the schema
that it has where it is found alone.
-/

set_option autoImplicit false
set_option relaxedAutoImplicit false

namespace EntityMapping

open Keyed (Distinct)

/-- The properties of a schema beside what is left of them where some inherited ones are passed
over: what is not inherited is left, what is not left is inherited if it is there at all, and
nothing comes in. -/
structure SplitOff (inherited : Keyed Json) (whole own : Option Json) : Prop where
  isFields : IsFields whole
  isFieldsToo : IsFields own
  apart : ∀ key, Keyed.get? inherited key = none →
    Keyed.get? (fieldsIn whole) key = Keyed.get? (fieldsIn own) key
  passedOver : ∀ key, Keyed.get? (fieldsIn own) key = none →
    Keyed.get? (fieldsIn whole) key = none ∨
      Keyed.get? (fieldsIn whole) key = Keyed.get? inherited key
  kept : ∀ key, Keyed.get? (fieldsIn whole) key = none → Keyed.get? (fieldsIn own) key = none

namespace SplitOff

variable {inherited : Keyed Json} {whole own whole' own' value : Option Json}

/-- Nothing is passed over. -/
theorem refl (isFields : IsFields value) : SplitOff inherited value value :=
  ⟨isFields, isFields, fun _ _ => rfl, fun _ absent => .inl absent, fun _ absent => absent⟩

/-- All that is inherited is passed over. -/
theorem all (isFields : IsFields value) : SplitOff (fieldsIn value) value none :=
  ⟨isFields, isFields_none, fun _ absent => absent, fun _ _ => .inr rfl, fun _ _ => rfl⟩

/-- Nothing is lost where the whole has all that is inherited. -/
theorem mem_keys_iff (split : SplitOff inherited whole own) (there : ∀ key,
      Keyed.get? (fieldsIn whole) key = none → Keyed.get? inherited key = none) (key : String) :
    key ∈ Keyed.keys (fieldsIn whole) ↔
      key ∈ Keyed.keys (fieldsIn own) ∨ key ∈ Keyed.keys inherited := by
  rw [← not_iff_not, not_or, ← Keyed.get?_eq_none_iff, ← Keyed.get?_eq_none_iff,
    ← Keyed.get?_eq_none_iff]
  refine ⟨fun absent => ⟨split.kept key absent, there key absent⟩, fun ⟨notOwn, notInherited⟩ => ?_⟩
  exact (split.apart key notInherited).trans notOwn

theorem get?_of_not_own (split : SplitOff inherited whole own) (there : ∀ key,
      Keyed.get? (fieldsIn whole) key = none → Keyed.get? inherited key = none) {key : String}
    (notOwn : Keyed.get? (fieldsIn own) key = none) :
    Keyed.get? (fieldsIn whole) key = Keyed.get? inherited key := by
  rcases split.passedOver key notOwn with absent | isInherited
  · rw [absent, there key absent]
  · exact isInherited

theorem laid (below : SplitOff inherited whole own) (above : SplitOff inherited whole' own') :
    SplitOff inherited (laidValue "properties" whole whole')
      (laidValue "properties" own own') := by
  have joining : Joining.ofKeyword "properties" = .byKey := by decide
  have found (key : String) : Keyed.get? (fieldsIn (laidValue "properties" whole whole')) key =
      (Keyed.get? (fieldsIn whole') key).or (Keyed.get? (fieldsIn whole) key) :=
    get?_fieldsIn_laid joining above.isFields key
  have foundToo (key : String) : Keyed.get? (fieldsIn (laidValue "properties" own own')) key =
      (Keyed.get? (fieldsIn own') key).or (Keyed.get? (fieldsIn own) key) :=
    get?_fieldsIn_laid joining above.isFieldsToo key
  refine ⟨below.isFields.laid joining above.isFields,
    below.isFieldsToo.laid joining above.isFieldsToo, fun key absent => ?_, fun key absent => ?_,
    fun key absent => ?_⟩
  · rw [found, foundToo, above.apart key absent, below.apart key absent]
  · rw [foundToo, Option.or_eq_none_iff] at absent
    rw [found]
    -- What is found is found above, or else below.
    rcases above.passedOver key absent.1 with missing | isInherited
    · rw [missing, Option.none_or]
      exact below.passedOver key absent.2
    · cases there : Keyed.get? (fieldsIn whole') key with
      | none =>
        rw [Option.none_or]
        exact below.passedOver key absent.2
      | some schema =>
        rw [Option.some_or]
        exact .inr (there.symm.trans isInherited)
  · rw [found, Option.or_eq_none_iff] at absent
    rw [foundToo, above.kept key absent.1, below.kept key absent.2, Option.none_or]

end SplitOff

namespace Registry

variable {registry : Registry} {skip : Option String} {name parent : String}
  {schema part top entry : Json} {flat own inherited : Keyed Json}

/-- The properties that a schema is composed of are objects. What is written beside a reference does
not count. -/
def DeclaresObjects (registry : Registry) (schema : Json) : Prop :=
  ∀ own value, registry.Composes schema (.obj own) → Keyed.get? own "$ref" = none →
    Keyed.get? own "properties" = some value → value.isObject = true

theorem DeclaresObjects.of_composes (objects : registry.DeclaresObjects schema)
    (parts : registry.Composes schema part) : registry.DeclaresObjects part :=
  fun own value further => objects own value (parts.trans further)

/-- Whether properties are objects can be read off the schema and the entities. -/
theorem DeclaresObjects.of_layers (references : registry.ComposedLocally schema)
    (inSchema : ∀ layer ∈ schema.composition.layers,
      (Keyed.get? layer "properties").all Json.isObject = true)
    (inEntries : ∀ entry ∈ registry.entries, ∀ layer ∈ entry.2.composition.layers,
      (Keyed.get? layer "properties").all Json.isObject = true) :
    registry.DeclaresObjects schema := by
  intro own value parts _ written
  have checked : (Keyed.get? own "properties").all Json.isObject = true :=
    references.of_layers _ parts inSchema inEntries
  simpa [written] using checked

section Parts

variable (keyed : registry.WellKeyed) (whole : top.isWellKeyed = true)
  (objects : registry.DeclaresObjects top)

include keyed whole

theorem distinct_of_derives (parts : registry.Composes top schema)
    (derivation : registry.Derives skip schema flat) : Distinct flat :=
  keyed.distinct_of_derives derivation (keyed.of_composes parts whole)

include objects

theorem DeclaresObjects.isFields (parts : registry.Composes top (.obj own))
    (noReference : Keyed.get? own "$ref" = none) : IsFields (Keyed.get? own "properties") :=
  isFields_of_isObject (keyed.of_composes parts whole) fun value =>
    objects own value parts noReference

/-- The keywords beside fragments are different, and their properties are an object. -/
theorem DeclaresObjects.isFields_beside (parts : registry.Composes top (.obj own))
    (noReference : Keyed.get? own "$ref" = none) :
    Distinct (Keyed.without own "allOf") ∧
      IsFields (Keyed.get? (Keyed.without own "allOf") "properties") := by
  refine ⟨Keyed.distinct_without (keyed.distinct whole parts) _, ?_⟩
  rw [Keyed.get?_without, if_neg (by decide)]
  exact objects.isFields keyed whole parts noReference

/-- What is merged is different keywords each time, and their properties are an object. -/
theorem DeclaresObjects.isFields_merged {items : List Json} {flats : List (Keyed Json)}
    (parts : registry.Composes top (.obj own)) (noReference : Keyed.get? own "$ref" = none)
    (written : Keyed.get? own "allOf" = some (.arr items))
    (each : List.Forall₂ (fun item flat => registry.Derives skip item flat ∧
      (registry.Composes top item → IsFields (Keyed.get? flat "properties"))) items flats) :
    ∀ fragment ∈ flats ++ siblings own,
      Distinct fragment ∧ IsFields (Keyed.get? fragment "properties") := by
  intro fragment member
  rcases List.mem_append.mp member with inFlats | beside
  · obtain ⟨item, inItems, derivation, isFields⟩ := exists_of_forall₂_right each inFlats
    have inItem := parts.trans (.fragment noReference written inItems (.self _))
    exact ⟨distinct_of_derives keyed whole inItem derivation, isFields inItem⟩
  · rw [eq_of_mem_siblings beside]
    exact objects.isFields_beside keyed whole parts noReference

/-- The properties that a schema amounts to are an object. -/
theorem DeclaresObjects.isFields_of_derives (parts : registry.Composes top schema)
    (derivation : registry.Derives skip schema flat) :
    IsFields (Keyed.get? flat "properties") := by
  induction derivation with
  | plain noReference _ => exact objects.isFields keyed whole parts noReference
  | skipped => exact isFields_none
  | reference reference parse _ led _ ih =>
    exact ih (parts.trans (.reference reference parse led (.self _)))
  | fragments noReference written sameLength each ih =>
    exact isFields_mergeFragments (by decide) (objects.isFields_merged keyed whole parts noReference
      written (List.forall₂_iff_zip.mpr ⟨sameLength, fun pair => ⟨each _ _ pair, ih _ _ pair⟩⟩))

/-- What a schema amounts to, beside what it amounts to without an entity that it is composed of. -/
theorem Derives.splitOff (references : registry.ComposedLocally top)
    (registered : registry.get? parent = some entry)
    (parentFlat : registry.Derives none entry inherited) (parts : registry.Composes top schema)
    (derivation : registry.Derives none schema flat)
    (rest : registry.Derives (some parent) schema own) :
    SplitOff (propertiesIn inherited) (Keyed.get? flat "properties")
      (Keyed.get? own "properties") := by
  induction derivation generalizing own with
  | plain noReference noFragments =>
    cases rest with
    | plain => exact .refl (objects.isFields keyed whole parts noReference)
    | skipped reference => cases noReference.symm.trans reference
    | reference reference => cases noReference.symm.trans reference
    | fragments _ written => cases noFragments.symm.trans written
  | skipped _ _ skipping => cases skipping
  | @reference outer flat text next parsed target reference parse _ led derivation ih =>
    have inTarget := parts.trans (.reference reference parse led (.self _))
    cases rest with
    | plain noReference => cases noReference.symm.trans reference
    | skipped referenceToo parseToo skipping =>
      -- The parent itself: nothing of it is left.
      obtain rfl := Json.str.inj (Option.some.inj (reference.symm.trans referenceToo))
      obtain rfl := Except.ok.inj (parse.symm.trans parseToo)
      obtain ⟨entity, rfl⟩ := references text ⟨_, parts, reference⟩ _ parse
      obtain rfl : parent = entity := Option.some.inj skipping
      obtain ⟨-, found⟩ := target_entity_eq_ok.mp led
      obtain rfl := Option.some.inj (registered.symm.trans found)
      obtain rfl := derivation.unique parentFlat
      exact .all (objects.isFields_of_derives keyed whole inTarget derivation)
    | reference referenceToo parseToo _ ledToo rest =>
      obtain rfl := Json.str.inj (Option.some.inj (reference.symm.trans referenceToo))
      obtain rfl := Except.ok.inj (parse.symm.trans parseToo)
      obtain ⟨-, rfl⟩ := Prod.mk.inj (Except.ok.inj (led.symm.trans ledToo))
      exact ih inTarget rest
    | fragments noReference => cases noReference.symm.trans reference
  | @fragments outer items flats noReference written sameLength each ih =>
    cases rest with
    | plain _ noFragments => cases noFragments.symm.trans written
    | skipped reference => cases noReference.symm.trans reference
    | reference reference => cases noReference.symm.trans reference
    | @fragments _ _ owns _ writtenToo sameLengthToo eachToo =>
      obtain rfl := Json.arr.inj (Option.some.inj (written.symm.trans writtenToo))
      have derived : List.Forall₂ (fun item flat => registry.Derives none item flat ∧
          ∀ {own}, registry.Composes top item → registry.Derives (some parent) item own →
            SplitOff (propertiesIn inherited) (Keyed.get? flat "properties")
              (Keyed.get? own "properties")) items flats :=
        List.forall₂_iff_zip.mpr ⟨sameLength, fun pair => ⟨each _ _ pair, ih _ _ pair⟩⟩
      have left : List.Forall₂ (registry.Derives (some parent)) items owns :=
        List.forall₂_iff_zip.mpr ⟨sameLengthToo, fun pair => eachToo _ _ pair⟩
      refine related_mergeFragments (.refl isFields_none) (fun below above => below.laid above)
        (List.rel_append ((forall₂_of_common derived left).imp ?_) (List.forall₂_same.mpr ?_))
      · rintro flat own ⟨item, inItems, ⟨derivation, split⟩, rest⟩
        have inItem := parts.trans (.fragment noReference written inItems (.self _))
        exact ⟨distinct_of_derives keyed whole inItem derivation,
          distinct_of_derives keyed whole inItem rest, split inItem rest⟩
      · intro fragment beside
        rw [eq_of_mem_siblings beside]
        have ⟨distinct, isFields⟩ := objects.isFields_beside keyed whole parts noReference
        exact ⟨distinct, distinct, .refl isFields⟩

/-- An entity that a schema is composed of is flattened on the way, and its properties are there. -/
theorem Derives.inherits (parts : registry.Composes top schema)
    (derivation : registry.Derives none schema flat)
    (reaches : registry.ReachesEntity schema parent) :
    ∃ entry inherited, registry.get? parent = some entry ∧ registry.Composes top entry ∧
      registry.Derives none entry inherited ∧
      ∀ key, Keyed.get? (propertiesIn flat) key = none →
        Keyed.get? (propertiesIn inherited) key = none := by
  induction derivation with
  | plain noReference noFragments =>
    exact absurd reaches (not_reachesEntity_of_plain noReference noFragments)
  | skipped _ _ skipping => cases skipping
  | reference reference parse _ led derivation ih =>
    have inTarget := parts.trans (.reference reference parse led (.self _))
    rcases reaches.in_target reference parse led with rfl | further
    · obtain ⟨-, registered⟩ := target_entity_eq_ok.mp led
      exact ⟨_, _, registered, inTarget, derivation, fun _ absent => absent⟩
    · exact ih inTarget further
  | @fragments outer items flats noReference written sameLength each ih =>
    have derived : List.Forall₂ (fun item flat => registry.Derives none item flat ∧
        (registry.Composes top item → registry.ReachesEntity item parent →
          ∃ entry inherited, registry.get? parent = some entry ∧ registry.Composes top entry ∧
            registry.Derives none entry inherited ∧
            ∀ key, Keyed.get? (propertiesIn flat) key = none →
              Keyed.get? (propertiesIn inherited) key = none)) items flats :=
      List.forall₂_iff_zip.mpr ⟨sameLength, fun pair => ⟨each _ _ pair, ih _ _ pair⟩⟩
    obtain ⟨item, member, inItem⟩ := reaches.in_fragment noReference written
    have partsOfItem := parts.trans (.fragment noReference written member (.self _))
    obtain ⟨flat, inFlats, derivation, found⟩ := exists_of_forall₂_left derived member
    obtain ⟨entry, inherited, registered, inTop, ofEntry, kept⟩ := found partsOfItem inItem
    have merged := objects.isFields_merged keyed whole parts noReference written
      (derived.imp fun item flat here =>
        ⟨here.1, fun inTop => objects.isFields_of_derives keyed whole inTop here.1⟩)
    refine ⟨entry, inherited, registered, inTop, ofEntry, fun key absent => kept key ?_⟩
    exact (get?_fieldsIn_mergeFragments_eq_none (by decide) key merged).mp absent flat
      (List.mem_append_left _ inFlats)

end Parts

/-- An entity is the sum of what it inherits and of what belongs to itself. The parent amounts to a
schema of its own; the properties of the entity are its own ones and those of the parent. What the
parent does not have is as it is in what belongs to the entity, and what does not belong to the
entity is as it is in the parent. An entity without a parent belongs to itself altogether. -/
theorem ownSchema_splits {ownFound : OwnSchema} (keyed : registry.WellKeyed)
    (whole : schema.isWellKeyed = true) (references : registry.ComposedLocally schema)
    (objects : registry.DeclaresObjects schema)
    (found : registry.ownSchema name schema = .ok ownFound) :
    ∃ flat, registry.flatten name schema = .ok flat ∧
      (ownFound.parent = none → ownFound.fields = flat.fields) ∧
      ∀ parent, ownFound.parent = some parent →
        ∃ entry inherited, registry.get? parent = some entry ∧
          registry.flatten parent entry = .ok inherited ∧
          (∀ property, property ∈ Keyed.keys (propertiesIn flat.fields) ↔
            property ∈ Keyed.keys (propertiesIn ownFound.fields) ∨
              property ∈ Keyed.keys (propertiesIn inherited.fields)) ∧
          (∀ property, property ∉ Keyed.keys (propertiesIn inherited.fields) →
            Keyed.get? (propertiesIn flat.fields) property =
              Keyed.get? (propertiesIn ownFound.fields) property) ∧
          ∀ property, property ∉ Keyed.keys (propertiesIn ownFound.fields) →
            Keyed.get? (propertiesIn flat.fields) property =
              Keyed.get? (propertiesIn inherited.fields) property := by
  obtain ⟨parentFound, rest, skipped, restFields⟩ := ownSchema_eq_ok.mp found
  obtain ⟨flat, flattened, -⟩ := bind_eq_ok.mp parentFound
  refine ⟨flat, flattened, fun alone => ?_, fun parent isParent => ?_⟩
  · rw [alone] at skipped
    rw [← restFields, Except.ok.inj (skipped.symm.trans flattened)]
  rw [isParent] at parentFound skipped
  -- the schema is composed of its parent, which can be flattened alone
  obtain ⟨-, target, -, ⟨text, parsed, reached, parse, led⟩, -⟩ := leadsTo_of_parent? parentFound
  obtain ⟨entity, rfl⟩ := references text reached parsed parse
  obtain ⟨rfl, -⟩ := target_entity_eq_ok.mp led
  have derivation : registry.Derives none schema flat.fields := derives_of_flattenFrom flattened
  obtain ⟨entry, fields, registered, inSchema, derivesEntry, there⟩ :=
    derivation.inherits keyed whole objects (.self schema) ⟨text, reached, parse⟩
  obtain ⟨inherited, flattenedParent, rfl⟩ : ∃ inherited, registry.flatten parent entry =
      .ok inherited ∧ inherited.fields = fields :=
    derivesEntry.flattenFrom (references.of_composes inSchema) (.start registry.length_names_le)
      (by simp)
  -- the two ways through the schema meet in the parent
  have split : SplitOff (propertiesIn inherited.fields) (Keyed.get? flat.fields "properties")
      (Keyed.get? ownFound.fields "properties") :=
    Derives.splitOff keyed whole objects references registered derivesEntry (.self schema)
      derivation (restFields ▸ derives_of_flattenFrom skipped)
  exact ⟨entry, inherited, registered, flattenedParent, split.mem_keys_iff there,
    fun property notInherited =>
      split.apart property ((Keyed.get?_eq_none_iff _ _).mpr notInherited),
    fun property notOwn =>
      split.get?_of_not_own there ((Keyed.get?_eq_none_iff _ _).mpr notOwn)⟩

/-- Employees are persons, by another name and once more in a fragment, and share with persons what
all entities have. They have a salary, and say again what their number is. -/
def employee : Json :=
  .obj [("allOf", .arr [.obj [("$ref", .str "#/Human")], .obj [("$ref", .str "#/Entity")],
    .obj [("allOf", .arr [.obj [("$ref", .str "#/Person")], .obj [("properties", .obj [
      ("number", .obj [("type", .str "integer")]),
      ("salary", .obj [("type", .str "number")])])]])]]),
    ("x-inherits", .str "Person")]

/-- What employees inherit. -/
def namedPerson : Json :=
  .obj [("allOf", .arr [.obj [("$ref", .str "#/Entity")],
    .obj [("x-tablename", .str "person"), ("properties", .obj [
      ("name", .obj [("type", .str "string")]), ("number", .obj [("type", .str "string")])])]])]

/-- Employees, and what they are composed of. -/
def payroll : Registry where
  entries := [
    ("Entity", .obj [("type", .str "object"), ("properties", .obj [
      ("id", .obj [("type", .str "integer"), ("x-primary-key", .bool true)])])]),
    ("Person", namedPerson),
    ("Human", .obj [("$ref", .str "#/components/schemas/Person")]),
    ("Employee", employee)]
  place := none
  documents := Documents.empty

/-- Employees have a salary of their own, and their name from persons. -/
theorem ownSchema_splits_payroll : payroll.WellKeyed ∧ payroll.ComposedLocally employee ∧
    payroll.DeclaresObjects employee ∧ ∃ own flat,
      payroll.ownSchema "Employee" employee = .ok own ∧ own.parent = some "Person" ∧
      payroll.flatten "Employee" employee = .ok flat ∧
      (∀ property, property ∈ Keyed.keys (propertiesIn flat.fields) ↔
        property ∈ ["id", "number", "salary"] ∨ property ∈ ["id", "name", "number"]) ∧
      Keyed.get? (propertiesIn flat.fields) "salary" = some (.obj [("type", .str "number")]) ∧
      Keyed.get? (propertiesIn flat.fields) "name" = some (.obj [("type", .str "string")]) := by
  have keyed : payroll.WellKeyed := wellKeyed_of_entries (by decide) (by decide +kernel)
  have references : payroll.ComposedLocally employee :=
    RefersLocally.composedLocally (by decide +kernel) (by decide +kernel)
  have objects : payroll.DeclaresObjects employee :=
    .of_layers references (by decide +kernel) (by decide +kernel)
  let own : OwnSchema := ⟨some "Person", [("type", .str "object"), ("properties", .obj [
    ("id", .obj [("type", .str "integer"), ("x-primary-key", .bool true)]),
    ("number", .obj [("type", .str "integer")]), ("salary", .obj [("type", .str "number")])]),
    ("x-inherits", .str "Person")]⟩
  have ownFound : payroll.ownSchema "Employee" employee = .ok own := by cbv
  obtain ⟨flat, flattened, -, split⟩ := ownSchema_splits keyed (by decide +kernel) references
    objects ownFound
  obtain ⟨entry, inherited, registered, flattenedPerson, names, apart, passedOver⟩ :=
    split "Person" rfl
  obtain rfl : namedPerson = entry := Option.some.inj registered
  have flattenedToo : payroll.flatten "Person" namedPerson = .ok ⟨"Person", [
      ("type", .str "object"), ("properties", .obj [
        ("id", .obj [("type", .str "integer"), ("x-primary-key", .bool true)]),
        ("name", .obj [("type", .str "string")]), ("number", .obj [("type", .str "string")])]),
      ("x-tablename", .str "person")]⟩ := by cbv
  obtain rfl := Except.ok.inj (flattenedToo.symm.trans flattenedPerson)
  refine ⟨keyed, references, objects, own, flat, ownFound, rfl, flattened, names, ?_, ?_⟩
  · rw [apart "salary" (by decide)]
    rfl
  · rw [passedOver "name" (by decide)]
    rfl

end Registry

end EntityMapping
