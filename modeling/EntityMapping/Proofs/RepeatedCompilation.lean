import EntityMapping.Proofs.OverlookedKeys
import EntityMapping.Proofs.PlainRegistries
import EntityMapping.Proofs.RepeatedRuns

/-!
Compiling a registry again that a compilation has left. Where the keys that relationships add are
settled, the second compilation returns what the first one returned and leaves the registry as it
is. Otherwise it may not: an entity that is composed of one with an added key lacks that key in the
first run if it was compiled before the key was written, and has it in the second run.
-/

set_option autoImplicit false
set_option relaxedAutoImplicit false

namespace EntityMapping

open Keyed (Distinct)
open Registry (Moment Later OwnDressed OwnSchema ownSchema_eq_ok)

/-- What is declared and is no relationship is composed of no entity that gets keys. -/
def Registry.ColumnsApart (registry : Registry) : Prop :=
  ∀ entity property schema holder key fields, (property, schema) ∈ registry.declared entity →
    registry.gather? property schema = .ok none → registry.AddsKey holder key fields →
    ¬ registry.Meets none schema holder

namespace Compilation

variable {base : Registry} {config : Config} {name : String} {before after : Compilation}
  {made : Option Model} {additions : String → Additions}

theorem built_record {built : Model} : (after.record (some built)).Built built.name := by
  simp [Built, record, ModelStore.isBuilt, ModelStore.get?_add]

theorem Built.record (isBuilt : after.Built name) (made : Option Model) :
    (after.record made).Built name := by
  cases made with
  | none => exact isBuilt
  | some model =>
    rw [Built, Compilation.record, ModelStore.isBuilt, ModelStore.get?_add]
    split
    · rfl
    · exact isBuilt

section Model

variable {registry final : Registry} {most : String → Additions} {built : String → Prop}
  {schema : Json} {own : OwnSchema}

/-- What belongs to an entity itself is the same as soon as the entity has got all its keys. -/
theorem flattenOwn_again (settled : base.KeysSettled) (first : base.Moment additions registry)
    (last : base.Moment most final) (later : Later built additions most)
    (sameName : additions name = most name) (registered : base.get? name = some schema)
    (parentFound : base.parent? name schema = .ok own.parent) (entry other : Json) :
    registry.flattenWithout own.parent name ((registry.get? name).getD entry) =
      final.flattenWithout own.parent name ((final.get? name).getD other) := by
  have flats : registry.flattenWithout own.parent name schema =
      final.flattenWithout own.parent name schema := by
    unfold Registry.flattenWithout
    rw [first.dresses.chainLimit, last.dresses.chainLimit]
    exact later.flattenFrom_eq first last fun holder property fields adds =>
      settled.apart holder property fields name schema own.parent adds registered parentFound
  rw [first.get?, last.get?, registered, Option.map_some, Option.map_some, Option.getD_some,
    Option.getD_some, Registry.Dresses.flattenWithout_apply (first.dresses.named _ _ registered),
    Registry.Dresses.flattenWithout_apply (last.dresses.named _ _ registered), flats, sameName]

/-- The columns of a model are the same: keys are, and what is declared is composed of no entity that
gets keys. -/
theorem modelProperties_again (keyed : base.WellKeyed) (settled : base.KeysSettled)
    (columns : base.ColumnsApart) (first : base.Moment additions registry)
    (last : base.Moment most final) (later : Later built additions most)
    (registered : base.get? name = some schema)
    (ownFound : base.ownSchema name schema = .ok own) {gathered : Keyed Relationship}
    (isGathered : ∀ field ∈ base.declared name, ∃ found, base.gather? field.1 field.2 = .ok found ∧
      ∀ relationship, found = some relationship → (field.1, relationship) ∈ gathered)
    {flat : FlatSchema} (flattened : registry.flattenWithout own.parent name
      ((additions name).apply schema) = .ok flat) {properties : Keyed Json}
    (propertiesFound : propertiesOf flat.fields = .ok properties) (required : List String) :
    modelProperties registry required gathered properties =
      modelProperties final required gathered properties := by
  have owns := first.ownSchema keyed settled registered
  rw [ownFound] at owns
  obtain ⟨other, otherFound, same, -, allProperties⟩ := owns.of_ok_left
  obtain ⟨-, _, flattenedToo, sameFields⟩ := ownSchema_eq_ok.mp otherFound
  rw [← same.1, flattened] at flattenedToo
  obtain rfl := Except.ok.inj flattenedToo
  rw [← sameFields, propertiesFound] at allProperties
  obtain rfl := Except.ok.inj allProperties
  refine modelProperties_congr fun field member notGathered => ?_
  rcases List.mem_append.mp member with inDeclared | isKey
  · obtain ⟨found, gatheredHere, among⟩ := isGathered field inDeclared
    have isNone : found = none := by
      by_contra isSome
      obtain ⟨relationship, rfl⟩ := Option.ne_none_iff_exists'.mp isSome
      have inKeys : field.1 ∈ Keyed.keys gathered := List.mem_map.mpr ⟨_, among _ rfl, rfl⟩
      exact (Keyed.get?_eq_none_iff _ _).mp notGathered inKeys
    unfold Registry.flatten Registry.flattenWithout
    rw [first.dresses.chainLimit, last.dresses.chainLimit]
    exact later.flattenFrom_eq first last fun holder key fields adds =>
      columns name field.1 field.2 holder key fields inDeclared (isNone ▸ gatheredHere) adds
  · obtain ⟨key, inKeys, rfl⟩ := List.mem_map.mp isKey
    obtain ⟨type, pointsAt, isKey, -⟩ :=
      (first.admits.keysApart settled).schemas name key inKeys
    rw [isKey.flatten, isKey.flatten]

end Model

section Again

variable (keyed : base.WellKeyed) (settled : base.KeysSettled) (columns : base.ColumnsApart)
  (moment : base.Moment additions before.registry)

include keyed settled columns moment

/-- What is left to do for an entity with a table is done again alike, at every later moment. -/
theorem linkedModel_again {schema : Json} {own ownBefore : OwnSchema} {tablename : String}
    (registered : base.get? name = some schema) (ownFound : base.ownSchema name schema = .ok own)
    (hasTable : own.keywords.tablename? = .ok (some tablename))
    (ownThen : before.registry.ownSchema name ((additions name).apply schema) = .ok ownBefore)
    (compiled : (linkedModel name tablename ((additions name).apply schema) ownBefore).runOn before =
      (.ok made, after)) :
    ∃ more, base.Moment more after.registry ∧ Later before.Built additions more ∧
      (∀ name, before.Built name → after.Built name) ∧
      ∀ most final other, base.Moment most final → Later (after.record made).Built more most →
        final.ownSchema name ((most name).apply schema) = .ok other →
        (linkedModel name tablename ((most name).apply schema) other).runOn
          (before.withRegistry final) = (.ok made, after.withRegistry final) := by
  obtain ⟨_, -, -, ownToo, sameOwn, propertiesBefore, -⟩ :=
    moment.exists_ownSchema keyed settled registered ownFound
  obtain rfl := Except.ok.inj (ownThen.symm.trans ownToo)
  obtain ⟨properties, gathered, flat, built, propertiesFound, linked, flattened, builtFound, rfl⟩ :=
    linkedModel_eq_ok.mp compiled
  obtain rfl := Except.ok.inj (propertiesBefore.symm.trans propertiesFound)
  have keySchemas := fun {more : String → Additions} (admits : base.Admits more) =>
    (admits.keysApart settled).schemas name
  rw [linkProperties_keys (keySchemas moment.admits)] at linked
  have whole := Registry.isWellKeyed_declared keyed registered ownFound
  have relates : ∀ field ∈ base.declared name, ∀ relationship,
      base.gather? field.1 field.2 = .ok (some relationship) → base.Relates name relationship :=
    fun field member relationship isGathered =>
      (Registry.relates_iff registered ownFound hasTable).mpr ⟨field, member, isGathered⟩
  obtain ⟨more, next, later, stillBuilt, again⟩ :=
    repeats_linkProperties keyed settled whole relates _ _ _ _ moment linked
  refine ⟨more, next, later, stillBuilt, fun most final other last toLast otherFound => ?_⟩
  obtain ⟨_, -, -, otherToo, same, propertiesLast, -⟩ :=
    last.exists_ownSchema keyed settled registered ownFound
  obtain rfl := Except.ok.inj (otherFound.symm.trans otherToo)
  have sameName : more name = most name := by
    refine toLast.built name ?_
    rw [← (model_eq_ok builtFound).1]
    exact built_record
  have toLastLinked : Later after.Built more most :=
    (Later.refl after.Built more).trans toLast fun _ isBuilt => isBuilt.record _
  have parentFound := (ownSchema_eq_ok.mp ownFound).1
  rw [← sameOwn.1] at flattened builtFound
  refine linkedModel_eq_ok.mpr ⟨_, gathered, flat, built, propertiesLast, ?_, ?_, ?_, rfl⟩
  · rw [linkProperties_keys (keySchemas last.admits)]
    exact again most final last toLastLinked
  · rw [← same.1, ← flattened]
    exact (flattenOwn_again settled next last toLast sameName registered parentFound _ _).symm
  · rw [← builtFound, ← same.1]
    refine (model_congr fun properties found => ?_).symm
    rw [next.get?, registered, Option.map_some, Option.getD_some] at flattened
    exact modelProperties_again keyed settled columns next last toLast registered ownFound
      (gathered_of_linked keyed settled whole relates moment linked) flattened found _

/-- An entity is compiled to the same model again, and its relationships are linked again alike. -/
theorem compileEntity_again
    (compiled : (compileEntity config name).runOn before = (.ok made, after)) :
    ∃ more, base.Moment more after.registry ∧ Later before.Built additions more ∧
      (∀ name, before.Built name → after.Built name) ∧
      ∀ most final, base.Moment most final → Later (after.record made).Built more most →
        (compileEntity config name).runOn (before.withRegistry final) =
          (.ok made, after.withRegistry final) := by
  rcases compileEntity_eq_ok.mp compiled with ⟨absent, rfl, rfl⟩ |
    ⟨entry, ownBefore, tablename, registered, ownFound, hasTable, compiled⟩
  · refine ⟨additions, moment, .refl _ _, fun _ built => built, fun most final last _ => ?_⟩
    refine compileEntity_eq_ok.mpr (.inl ⟨?_, rfl, rfl⟩)
    rw [moment.get?, Option.map_eq_none_iff] at absent
    exact (last.get? name).trans (by rw [absent]; rfl)
  rw [moment.get?] at registered
  obtain ⟨schema, isSchema, rfl⟩ := Option.map_eq_some_iff.mp registered
  have owns := moment.ownSchema keyed settled isSchema
  rw [ownFound] at owns
  obtain ⟨own, ownAsGiven, ⟨sameOwn, -, -⟩⟩ := owns.of_ok_right
  rw [sameOwn.tablename?] at hasTable
  cases tablename with
  | none =>
    obtain ⟨rfl, rfl⟩ := compiled
    refine ⟨additions, moment, .refl _ _, fun _ built => built, fun most final last _ => ?_⟩
    obtain ⟨other, -, entryLast, otherFound, same, -⟩ :=
      last.exists_ownSchema keyed settled isSchema ownAsGiven
    exact compileEntity_eq_ok.mpr (.inr ⟨_, other, none, entryLast, otherFound,
      same.tablename?.trans hasTable, rfl, rfl⟩)
  | some tablename =>
    obtain ⟨valid, compiled⟩ := compiled
    obtain ⟨more, next, later, stillBuilt, again⟩ := linkedModel_again keyed settled columns moment
      isSchema ownAsGiven hasTable ownFound compiled
    refine ⟨more, next, later, stillBuilt, fun most final last toLast => ?_⟩
    obtain ⟨other, -, entryLast, otherFound, same, -⟩ :=
      last.exists_ownSchema keyed settled isSchema ownAsGiven
    refine compileEntity_eq_ok.mpr (.inr ⟨_, other, some tablename, entryLast, otherFound,
      same.tablename?.trans hasTable, fun validated => ?_,
      again most final other last toLast otherFound⟩)
    have momentToLast : Later before.Built additions most :=
      later.trans toLast fun _ isBuilt => (stillBuilt _ isBuilt).record _
    exact moment.dresses.validateEntity last.dresses keyed settled moment.admits last.admits
      (moment.admits.sameBackrefs momentToLast.backrefs) isSchema (valid validated)

end Again

/-- All entities are compiled again alike. -/
theorem repeats_compileEntities (keyed : base.WellKeyed) (settled : base.KeysSettled)
    (columns : base.ColumnsApart) (names : List String) :
    Repeats base (compileEntities config names) := by
  induction names with
  | nil => exact .pure _
  | cons name rest ih =>
    intro additions before value after moment succeeded
    obtain ⟨made, middle, compiled, succeeded⟩ := compileEntities_cons_eq_ok.mp succeeded
    obtain ⟨more, next, later, built, again⟩ :=
      compileEntity_again keyed settled columns moment compiled
    have recorded : base.Moment more (middle.record made).registry := by
      cases made <;> exact next
    obtain ⟨even, last, laterStill, builtStill, againStill⟩ := ih _ _ _ _ recorded succeeded
    have toRecord : ∀ name, before.Built name → (middle.record made).Built name :=
      fun name isBuilt => (built name isBuilt).record made
    refine ⟨even, last, later.trans laterStill toRecord, fun name isBuilt =>
      builtStill _ (toRecord _ isBuilt), fun most final final' toFinal => ?_⟩
    have sameRecord : (middle.withRegistry final).record made =
        (middle.record made).withRegistry final := by
      cases made <;> rfl
    refine compileEntities_cons_eq_ok.mpr
      ⟨made, _, again most final final' (laterStill.trans toFinal builtStill), ?_⟩
    rw [sameRecord]
    exact againStill most final final' toFinal

theorem placed_eq_self {config : Config} {registry final : Registry}
    (place : final.place = (placed config registry).place) : placed config final = final := by
  unfold placed at place ⊢
  split
  · rename_i path isSome
    rw [isSome] at place
    cases final
    simp_all
  · rfl

end Compilation

namespace Registry

open Compilation

variable {registry base one two next : Registry} {groups : BackrefGroups} {model : String}
  {group : Keyed Json} {additions more : String → Additions}

/-- What a pass adds are back references of objects. -/
theorem BackrefPass.admits (pass : base.BackrefPass groups additions next)
    (references : base.RefersLocally) : base.Admits additions where
  objects name isSome := by
    refine isObjectEntity_of_mem references pass.found ?_
    by_contra notMember
    exact isSome (pass.outside name notMember ▸ rfl)
  distinct name fields isSome := by
    obtain ⟨missing, isMissing, distinct, -⟩ := pass.onlyImplied name
    rw [isMissing] at isSome
    cases missing with
    | nil => cases isSome
    | cons first rest => exact Option.some.inj isSome ▸ distinct
  keys name key member := by
    rw [pass.noKeys name] at member
    cases member

/-- An entity has the back references of a group at every moment at which the same ones have been
added. -/
theorem CarriesBackrefs.of_same (dressesOne : base.Dresses additions one)
    (dressesTwo : base.Dresses more two) (keyed : base.WellKeyed)
    (same : SameBackrefs additions more) (carries : one.CarriesBackrefs model group) :
    two.CarriesBackrefs model group := by
  obtain ⟨_, flat, registered, flattened, carries⟩ := carries
  rw [dressesOne.get?] at registered
  obtain ⟨schema, isSchema, rfl⟩ := Option.map_eq_some_iff.mp registered
  have alike : Alike (Corresponds "x-backrefs" SameFields)
      (one.flatten model ((additions model).apply schema))
      (two.flatten model ((more model).apply schema)) :=
    dressesOne.backrefs_alike dressesTwo keyed same isSchema
  rw [flattened] at alike
  obtain ⟨other, flattenedToo, -, -, -, sameFields⟩ := alike.of_ok_left
  have entry : two.get? model = some ((more model).apply schema) := by
    rw [dressesTwo.get?, isSchema, Option.map_some]
  refine ⟨_, other, entry, flattenedToo, fun field inGroup => ?_⟩
  obtain ⟨current, found, agrees⟩ := carries field inGroup
  exact ⟨current, (sameFields.get? field.1).symm.trans found, agrees⟩

/-- Once a compilation is done, there are no back references left to add. -/
theorem BackrefPass.addAllBackrefs_final {final : Registry}
    (pass : base.BackrefPass groups additions next) (keyed : base.WellKeyed)
    (agree : base.BackrefsAgree) (settled : base.KeysSettled)
    (last : base.Moment more final) (same : SameBackrefs additions more)
    (names : final.names = base.names) : final.addAllBackrefs = (final, .ok ()) := by
  have found : final.backrefGroups = .ok groups := by
    rw [last.dresses.backrefGroups keyed (last.admits.typed settled)
      (last.admits.keysApart settled) names]
    exact pass.found
  have carried : ∀ model group, (model, group) ∈ groups → final.CarriesBackrefs model group :=
    fun model group member => (pass.carriesBackrefs keyed agree member).of_same pass.dresses
      last.dresses keyed same
  have named : ∀ model group, (model, group) ∈ groups → final.NamesBackrefs model group := by
    intro model group member
    obtain ⟨schema, flat, registered, flattened, carries⟩ := carried model group member
    refine ⟨schema, flat, registered, flattened, fun field inGroup => ?_⟩
    obtain ⟨current, isThere, -⟩ := carries field inGroup
    exact Keyed.mem_keys_of_get? isThere
  obtain ⟨unchanged, succeeds⟩ := addGroups_of_namesBackrefs named
  rw [addAllBackrefs, found]
  exact Prod.ext unchanged (succeeds.mpr carried)

/-- A registry is prepared to a moment; at every later moment it is prepared already. -/
theorem prepared_again {config : Config} (keyed : registry.WellKeyed)
    (references : registry.RefersLocally) (settled : (placed config registry).KeysSettled)
    (agree : config.processBackrefs = true → (placed config registry).BackrefsAgree)
    (wasPrepared : (prepared config registry).1 = .ok ()) :
    ∃ additions, (placed config registry).Moment additions (prepared config registry).2.registry ∧
      ∀ most final, (placed config registry).Moment most final → SameBackrefs additions most →
        final.names = registry.names → prepared config final = (.ok (), start final) := by
  have keyedPlaced := wellKeyed_placed keyed config
  have referencesPlaced := refersLocally_placed references config
  have sameNames : (placed config registry).names = registry.names :=
    congrArg Keyed.keys (placed_entries config registry)
  rw [prepared_eq] at wasPrepared ⊢
  by_cases process : config.processBackrefs = true
  · rw [if_pos process] at wasPrepared ⊢
    have added : (placed config registry).addAllBackrefs =
        ((placed config registry).addAllBackrefs.1, .ok ()) := Prod.ext rfl wasPrepared
    obtain ⟨groups, additions, pass⟩ := backrefPass_of_addAllBackrefs referencesPlaced added
    refine ⟨additions, ⟨pass.dresses, pass.admits referencesPlaced⟩, fun most final last same names =>
      ?_⟩
    have again := pass.addAllBackrefs_final keyedPlaced (agree process) settled last same
      (names.trans sameNames.symm)
    rw [prepared_eq, if_pos process, placed_eq_self last.dresses.place, again]
  · rw [if_neg process]
    refine ⟨fun _ => .nothing, ⟨.refl _, .nothing _⟩, fun most final last _ _ => ?_⟩
    rw [prepared_eq, if_neg process, placed_eq_self last.dresses.place]

/-- Compiling again what a compilation has left returns the same and leaves it as it is, if the keys
that relationships add are settled, nothing that becomes a column is composed of an entity that gets
keys, and the back references of entities that are composed of one another agree. -/
theorem compile_again {final : Registry} {config : Config} {result : CompiledSchema}
    (keyed : registry.WellKeyed) (references : registry.RefersLocally)
    (settled : (placed config registry).KeysSettled)
    (columns : (placed config registry).ColumnsApart)
    (agree : config.processBackrefs = true → (placed config registry).BackrefsAgree)
    (compiled : registry.compile config = (.ok result, final)) :
    final.compile config = (.ok result, final) := by
  obtain ⟨wasPrepared, after, ran, rfl, rfl⟩ := compile_eq_ok_iff.mp compiled
  obtain ⟨additions, moment, preparedAgain⟩ :=
    prepared_again keyed references settled agree wasPrepared
  obtain ⟨more, last, later, -, again⟩ := repeats_compileEntities (wellKeyed_placed keyed config)
    settled columns _ _ _ _ _ moment ran
  have names : after.registry.names = registry.names := by
    have steps := (compileEntities_moves config (prepared config registry).2.registry.names
      (List.Subset.refl _)).steps ran
    exact ((extends_prepared registry config).of_steps steps).names
  have isPrepared := preparedAgain more after.registry last
    (moment.admits.sameBackrefs later.backrefs) names
  refine compile_eq_ok_iff.mpr ⟨by rw [isPrepared], after, ?_, rfl, rfl⟩
  have sameStart : (prepared config registry).2.withRegistry after.registry =
      start after.registry := by
    rw [prepared_eq_start]
    rfl
  have sameNames : (prepared config registry).2.registry.names = after.registry.names :=
    (extends_prepared registry config).names.trans names.symm
  have ranAgain := again more after.registry last (.refl _ _)
  rw [sameStart, sameNames] at ranAgain
  rw [isPrepared]
  exact ranAgain

/-- The fields of an author of texts. -/
def writerFields : Keyed Json :=
  [("type", .str "object"), ("x-tablename", .str "author"),
    ("properties", .obj [("id", identifier), ("texts", listing "Text")])]

/-- Authors and their texts. -/
def shelf : Registry where
  entries := [("Author", .obj writerFields), ("Text", unkeyedText)]
  place := none
  documents := Documents.empty

/-- The texts of an author. -/
def texts : Relationship := .toEntity .array "Text"

theorem shelf_isPlain : shelf.IsPlain := by
  intro name schema registered
  have member := Keyed.mem_of_get? registered
  simp only [shelf, List.mem_cons, Prod.mk.injEq, List.not_mem_nil, or_false] at member
  rcases member with ⟨rfl, rfl⟩ | ⟨rfl, rfl⟩
  · refine ⟨_, rfl, rfl, rfl, rfl, ?_⟩
    simp [writerFields, Keyed.get?, Json.isObject, Json.fields?]
  · refine ⟨_, rfl, rfl, rfl, rfl, ?_⟩
    simp [Keyed.get?, Json.isObject, Json.fields?]

theorem shelf_declared {entity property : String} {schema : Json}
    (member : (property, schema) ∈ shelf.declared entity) :
    (property, schema) = ("id", identifier) ∨
      entity = "Author" ∧ (property, schema) = ("texts", listing "Text") := by
  have author : shelf.ownSchema "Author" (.obj writerFields) = .ok ⟨none, writerFields⟩ := by cbv
  have text : shelf.ownSchema "Text" unkeyedText = .ok ⟨none, [("type", .str "object"),
      ("x-tablename", .str "text"), ("properties", .obj [("id", identifier)])]⟩ := by cbv
  cases registered : shelf.get? entity with
  | none => simp [declared, Registry.registered, registered] at member
  | some entry =>
    have isEntry := Keyed.mem_of_get? registered
    simp only [shelf, List.mem_cons, Prod.mk.injEq, List.not_mem_nil, or_false] at isEntry
    rcases isEntry with ⟨rfl, rfl⟩ | ⟨rfl, rfl⟩
    · rw [declared_eq registered author] at member
      rcases List.mem_cons.mp member with here | later
      · exact .inl here
      · exact .inr ⟨rfl, List.mem_singleton.mp later⟩
    · rw [declared_eq registered text] at member
      exact .inl (List.mem_singleton.mp member)

theorem shelf_relates {entity : String} {relationship : Relationship}
    (relates : shelf.Relates entity relationship) : entity = "Author" ∧ relationship = texts := by
  obtain ⟨schema, own, tablename, property, value, registered, ownFound, -, member, gathered⟩ :=
    relates
  have noRelationship : shelf.gather? "id" identifier = .ok none := by cbv
  have relationship : shelf.gather? "texts" (listing "Text") = .ok (some texts) := by cbv
  rw [← declared_eq registered ownFound] at member
  rcases shelf_declared member with same | ⟨rfl, same⟩
  · obtain ⟨rfl, rfl⟩ := Prod.mk.inj same
    cases noRelationship.symm.trans gathered
  · obtain ⟨rfl, rfl⟩ := Prod.mk.inj same
    exact ⟨rfl, (Option.some.inj (Except.ok.inj (relationship.symm.trans gathered))).symm⟩

theorem shelf_addsKey {holder property : String} {fields : Keyed Json}
    (adds : shelf.AddsKey holder property fields) :
    holder = "Text" ∧ property = "author_id" ∧ fields = authorKey := by
  obtain ⟨entity, relationship, column, relates, -, rfl, required⟩ := adds
  obtain ⟨rfl, rfl⟩ := shelf_relates relates
  have missing : shelf.foreignKey "Text" "Author" "id" none =
      .ok (.missing "author_id" (.obj authorKey) { identifierColumn with
        primaryKey := false, foreignKey := some "author.id", dictIgnore := true }) := by cbv
  obtain ⟨rfl, same, -⟩ :=
    ForeignKey.Requirement.missing.inj (Except.ok.inj (missing.symm.trans required))
  exact ⟨rfl, rfl, (Json.obj.inj same).symm⟩

theorem shelf_keysSettled : shelf.KeysSettled := by
  refine shelf_isPlain.keysSettled fun holder property fields entity relationship adds relates => ?_
  obtain ⟨-, rfl, -⟩ := shelf_addsKey adds
  obtain ⟨-, rfl⟩ := shelf_relates relates
  decide

theorem shelf_columnsApart : shelf.ColumnsApart := by
  intro entity property schema holder key fields member gathered _ meets
  rcases shelf_declared member with same | ⟨rfl, same⟩
  · obtain ⟨rfl, rfl⟩ := Prod.mk.inj same
    exact not_reachesEntity_of_plain rfl rfl meets.reachesEntity
  · obtain ⟨rfl, rfl⟩ := Prod.mk.inj same
    exact not_reachesEntity_of_plain rfl rfl meets.reachesEntity

/-- The models of authors and their texts. -/
def shelfModels : CompiledSchema where
  models := [
    { Model.named "Author" "author" with properties :=
        [⟨"id", .column identifierColumn, identifier⟩,
          ⟨"texts", .relationship texts, .obj (Relationship.listSchema "Text")⟩] },
    { Model.named "Text" "text" with properties :=
        [⟨"id", .column identifierColumn, identifier⟩,
          ⟨"author_id", .column { identifierColumn with
            primaryKey := false, foreignKey := some "author.id", dictIgnore := true },
            .obj authorKey⟩] }]
  associationTables := []

/-- A registry that compiles to the same again, and one that does not: novels are composed of texts,
and get the key of texts in the second compilation only. -/
theorem compile_again_shelf :
    let keyed := fun registry : Registry => registry.insert "Text"
      (wrap unkeyedText (propertyFragment "author_id" (.obj authorKey)))
    shelf.compile Config.usual = (.ok shelfModels, keyed shelf) ∧
      (keyed shelf).compile Config.usual = (.ok shelfModels, keyed shelf) ∧
      library.compile Config.usual = (.ok libraryModels, keyed library) ∧
      (keyed library).compile Config.usual ≠ (.ok libraryModels, keyed library) ∧
      ¬ (library.KeysSettled ∧ library.ColumnsApart ∧ library.BackrefsAgree) := by
  intro keyed
  have shelfKeyed : shelf.WellKeyed := wellKeyed_of_entries (by decide) (by decide +kernel)
  have shelfReferences : shelf.RefersLocally := by decide +kernel
  have libraryKeyed : library.WellKeyed := wellKeyed_of_entries (by decide) (by decide +kernel)
  have libraryReferences : library.RefersLocally := by decide +kernel
  have first : shelf.compile Config.usual = (.ok shelfModels, keyed shelf) := by cbv
  have firstLibrary : library.compile Config.usual = (.ok libraryModels, keyed library) := by cbv
  have hasKey : ((keyed library).compile Config.usual).1.map (fun compiled =>
      (compiled.model? "Novel").map fun novel => novel.hasProperty "author_id") =
        .ok (some true) := by cbv
  have differs : (keyed library).compile Config.usual ≠ (.ok libraryModels, keyed library) := by
    intro same
    rw [same] at hasKey
    cases hasKey
  refine ⟨first, ?_, firstLibrary, differs, ?_⟩
  · exact compile_again shelfKeyed shelfReferences shelf_keysSettled shelf_columnsApart
      (fun _ => shelf_isPlain.backrefsApart.agree) first
  · rintro ⟨settled, columns, agree⟩
    exact differs (compile_again libraryKeyed libraryReferences settled columns (fun _ => agree)
      firstLibrary)

end Registry

end EntityMapping
