import EntityMapping.Proofs.CollectedTables
import EntityMapping.Proofs.LinkedRegistries

/-!
How the properties of an entity are filed in its model. They are classified twice: those that are
declared when the entity's turn comes are gathered as relationships, and what is found in its schema
after that, and was not gathered, becomes a column. In between keys are written, which leaves every
schema the kind of values that it describes. So both classifications agree on every schema that was
there before; a property that only shows up in between is never gathered, whatever it is.
-/

set_option autoImplicit false
set_option relaxedAutoImplicit false

namespace EntityMapping

open Keyed (Distinct)

/-- A flat schema describes objects or lists, and does not say that they are stored as JSON. -/
def FlatSchema.IsCompound (flat : FlatSchema) : Prop :=
  ∃ type, flat.keywords.primitiveType = .ok type ∧ type.isScalar = false ∧
    flat.keywords.json? ≠ .ok (some true)

theorem FlatSchema.SameKind.isCompound {flat other : FlatSchema} (same : SameKind flat other) :
    flat.IsCompound ↔ other.IsCompound := by
  simp only [FlatSchema.IsCompound, same.primitiveType, same.json?]

/-- Keys are scalars. -/
theorem ForeignKey.IsKey.not_isCompound {registry : Registry} {property : String} {schema : Json}
    {flat : FlatSchema} (isKey : IsKey schema)
    (flattened : registry.flatten property schema = .ok flat) : ¬ flat.IsCompound := by
  obtain ⟨fields, type, pointsAt, rfl, isKey, scalar⟩ := isKey
  obtain rfl := Except.ok.inj (isKey.flatten.symm.trans flattened)
  rintro ⟨_, isType, notScalar, -⟩
  obtain rfl := Except.ok.inj (isKey.primitiveType.symm.trans isType)
  cases scalar.symm.trans notScalar

namespace Registry

variable {registry : Registry} {property : String} {schema : Json} {found : Option Relationship}

/-- A property holds instances of entities: it is an object or a list that is neither stored as JSON
nor read only. -/
def IsRelational (registry : Registry) (property : String) (schema : Json) : Prop :=
  ∃ flat, registry.flatten property schema = .ok flat ∧ flat.IsCompound ∧
    flat.keywords.readOnly? ≠ .ok (some true)

/-- What is gathered is what holds instances of entities. -/
theorem isRelational_iff (gathered : registry.gather? property schema = .ok found) :
    registry.IsRelational property schema ↔ found.isSome = true := by
  obtain ⟨flat, flattened, gathered⟩ := bind_eq_ok.mp gathered
  have only : registry.IsRelational property schema ↔
      flat.IsCompound ∧ flat.keywords.readOnly? ≠ .ok (some true) := by
    simp [IsRelational, flattened]
  rw [only]
  obtain ⟨json, isJson, gathered⟩ := bind_eq_ok.mp gathered
  split at gathered
  · rename_i stored
    obtain rfl := Except.ok.inj gathered
    simp [FlatSchema.IsCompound, isJson, stored]
  rename_i notStored
  obtain ⟨type, isType, gathered⟩ := bind_eq_ok.mp gathered
  split at gathered
  · rename_i scalar
    obtain rfl := Except.ok.inj gathered
    simp [FlatSchema.IsCompound, isType, scalar]
  rename_i notScalar
  obtain ⟨readOnly, isReadOnly, gathered⟩ := bind_eq_ok.mp gathered
  split at gathered
  · rename_i onlyRead
    obtain rfl := Except.ok.inj gathered
    simp [isReadOnly, onlyRead]
  rename_i writable
  have isSome : found.isSome = true := by
    split at gathered
    · obtain ⟨list, -, gathered⟩ := bind_eq_ok.mp gathered
      exact Except.ok.inj gathered ▸ rfl
    · obtain ⟨object, -, gathered⟩ := bind_eq_ok.mp gathered
      exact Except.ok.inj gathered ▸ rfl
  simp [FlatSchema.IsCompound, isType, isJson, isReadOnly, notStored, notScalar, writable, isSome]

/-- Every entity with a table of its own amounts to type `object`. -/
def TablesAreObjects (registry : Registry) : Prop :=
  ∀ name, registry.OwnsTable name → ∃ schema flat, registry.get? name = some schema ∧
    registry.flatten name schema = .ok flat ∧ flat.keywords.primitiveType = .ok .object

theorem tablesAreObjects_of_entries (objects : ∀ entry ∈ registry.entries,
    (registry.flatten entry.1 entry.2 >>= fun flat => flat.keywords.primitiveType) = .ok .object) :
    registry.TablesAreObjects := by
  rintro name ⟨schema, -, -, registered, -⟩
  obtain ⟨flat, flattened, isObject⟩ := bind_eq_ok.mp (objects _ (Keyed.mem_of_get? registered))
  exact ⟨schema, flat, registered, flattened, isObject⟩

end Registry

namespace Compilation

variable {config : Config} {registry : Registry} {name property : String}
  {before after : Compilation} {schema : Json} {model : Model}

/-- What a run has made when it comes to a property of an entity, the properties before it being
linked. -/
def turn (name : String) (before : Compilation) (property : String) : Compilation :=
  ((linkProperties name ((before.registry.declared name).takeWhile (·.1 ≠ property))).runOn
    before).2

/-- A property is declared when an entity is compiled, and holds instances of entities when its turn
comes. -/
def IsLinked (name : String) (before : Compilation) (property : String) : Prop :=
  ∃ schema, (property, schema) ∈ before.registry.declared name ∧
    (turn name before property).registry.IsRelational property schema

/-- How a property that the entity has in the end is filed in the model, if it is: as what was
gathered at its turn, or else as a column. Objects and lists that were not gathered are left out,
unless they are stored as JSON. -/
inductive Filed (name : String) (before after : Compilation) (required : List String)
    (property : String) (schema : Json) : Option ModelProperty → Prop
  | relationship {given : Json} {relationship : Relationship} :
      (property, given) ∈ before.registry.declared name →
      (turn name before property).registry.IsRelational property given →
      (turn name before property).registry.gather? property given = .ok (some relationship) →
      Filed name before after required property schema
        (some ⟨property, .relationship relationship, relationship.propertySchema⟩)
  | column {flat : FlatSchema} {column : Column} :
      ¬ IsLinked name before property → after.registry.flatten property schema = .ok flat →
      ¬ flat.IsCompound →
      Column.ofSchema flat.schema (some (required.contains property)) = .ok column →
      Filed name before after required property schema
        (some ⟨property, .column column, flat.schema⟩)
  | leftOut {flat : FlatSchema} :
      ¬ IsLinked name before property → after.registry.flatten property schema = .ok flat →
      flat.IsCompound → Filed name before after required property schema none

/-- How a property becomes a column, or none. -/
theorem compound_or_column {required : List String} {made : Option ModelProperty}
    (compiled : columnProperty? registry required property schema = .ok made) :
    ∃ flat, registry.flatten property schema = .ok flat ∧
      ((flat.IsCompound ∧ made = none) ∨ (¬ flat.IsCompound ∧ ∃ column,
        Column.ofSchema flat.schema (some (required.contains property)) = .ok column ∧
          made = some ⟨property, .column column, flat.schema⟩)) := by
  obtain ⟨flat, flattened, compiled⟩ := bind_eq_ok.mp compiled
  obtain ⟨type, isType, compiled⟩ := bind_eq_ok.mp compiled
  obtain ⟨json, isJson, compiled⟩ := bind_eq_ok.mp compiled
  refine ⟨flat, flattened, ?_⟩
  have compound : flat.IsCompound ↔ type.isScalar = false ∧ json ≠ some true := by
    simp [FlatSchema.IsCompound, isType, isJson]
  dsimp only at compiled
  split at compiled
  · rename_i neither
    exact .inl ⟨compound.mpr (by simpa using neither), (Except.ok.inj compiled).symm⟩
  · rename_i stored
    obtain ⟨column, built, compiled⟩ := bind_eq_ok.mp compiled
    exact .inr ⟨fun isCompound => stored (by simpa using compound.mp isCompound), column, built,
      (Except.ok.inj compiled).symm⟩

namespace EntityRun

variable (run : EntityRun name before after model) (keyed : before.registry.WellKeyed)
  (references : before.registry.RefersLocally) (objects : before.registry.TablesAreObjects)

include run keyed references objects

theorem ready : before.registry.ReadyToLink name := by
  obtain ⟨schema, flat, registered, flattened, isObject⟩ := objects name
    ⟨run.schema, run.own, run.tablename, run.registered, run.ownFound, run.hasTable⟩
  exact ⟨keyed, references, schema, registered, _, _, _, flat, flattened,
    KeywordReader.get?_of_primitiveType isObject⟩

omit keyed objects in
/-- The properties of the entity stay within the registry. -/
theorem refersLocally : ∀ field ∈ run.properties, field.2.refersLocally = true :=
  propertiesOf_eq_ok run.propertiesFound ▸ references.of_ownSchema
    (references _ (Keyed.mem_of_get? run.registered)) run.ownFound

/-- Linking the entity writes keys. -/
theorem keysWritten : before.registry.KeysWritten after.registry :=
  keysWritten_of_linkProperties (run.ready keyed references objects)
    (run.refersLocally references) run.linked

/-- What stands when a property's turn comes: keys have been written until then, and will be written
after that; what is gathered is kept. -/
theorem at_turn (declared : (property, schema) ∈ before.registry.declared name) :
    ∃ found, (turn name before property).registry.gather? property schema = .ok found ∧
      Keyed.get? run.gathered property = found ∧
      before.registry.KeysWritten (turn name before property).registry ∧
      (turn name before property).registry.KeysWritten after.registry := by
  have ready := run.ready keyed references objects
  have stays := run.refersLocally references
  have linked := run.linked
  obtain ⟨first, later, split⟩ := List.append_of_mem declared
  rw [run.properties_eq] at stays linked
  have distinct := keyed.distinct_declared name
  rw [split] at stays linked distinct
  obtain ⟨notFirst, notLater⟩ := Keyed.notMem_keys_of_cut distinct
  obtain ⟨state, found, next, some, others, earlier, here, rest, parts⟩ := linkProperties_cut linked
  have isTurn : turn name before property = state := by
    rw [turn, split, Keyed.takeWhile_ne_of_cut notFirst, earlier]
  have untilNow := keysWritten_of_linkProperties ready
    (fun other member => stays other (List.mem_append_left _ member)) earlier
  have readyNow := untilNow.ready ready
  have now := keysWritten_of_linkProperty readyNow
    (stays _ (List.mem_append_right _ List.mem_cons_self)) here
  have afterwards := keysWritten_of_linkProperties (now.ready readyNow)
    (fun other member => stays other (List.mem_append_right _ (List.mem_cons_of_mem _ member))) rest
  rw [isTurn]
  refine ⟨found, (linkProperty_eq_ok.mp here).1, ?_, untilNow, now.trans afterwards⟩
  have notSome : Keyed.get? some property = none :=
    (Keyed.get?_eq_none_iff _ _).mpr fun member =>
      notFirst ((sublist_of_linkProperties earlier).subset member)
  have notOthers : Keyed.get? others property = none :=
    (Keyed.get?_eq_none_iff _ _).mpr fun member =>
      notLater ((sublist_of_linkProperties rest).subset member)
  rw [parts, Keyed.get?_append, Keyed.get?_append, notSome, notOthers, Option.none_or,
    Option.or_none]
  cases found with
  | none => rfl
  | some relationship => simp [Keyed.get?_cons]

/-- What is gathered is what is linked. -/
theorem isLinked_iff :
    IsLinked name before property ↔ property ∈ Keyed.keys run.gathered := by
  constructor
  · rintro ⟨schema, declared, relational⟩
    obtain ⟨found, isGathered, same, -⟩ := run.at_turn keyed references objects declared
    obtain ⟨relationship, rfl⟩ :=
      Option.isSome_iff_exists.mp ((Registry.isRelational_iff isGathered).mp relational)
    exact Keyed.mem_keys_of_get? same
  · intro member
    obtain ⟨relationship, present⟩ := Keyed.get?_of_mem_keys member
    obtain ⟨schema, _, inProperties, -⟩ :=
      gathered_of_linkProperties run.linked _ (Keyed.mem_of_get? present)
    have declared := run.properties_eq ▸ inProperties
    obtain ⟨found, isGathered, same, -⟩ := run.at_turn keyed references objects declared
    obtain rfl := present.symm.trans same
    exact ⟨schema, declared, (Registry.isRelational_iff isGathered).mpr rfl⟩

/-- A property is filed as it is compiled. -/
theorem filed_of_compiledProperty? {required : List String} {made : Option ModelProperty}
    (compiled : compiledProperty? after.registry required run.gathered property schema = .ok made) :
    Filed name before after required property schema made := by
  unfold compiledProperty? at compiled
  split at compiled
  · rename_i relationship present
    obtain rfl := Except.ok.inj compiled
    obtain ⟨given, declared, relational⟩ :=
      (run.isLinked_iff keyed references objects).mpr (Keyed.mem_keys_of_get? present)
    obtain ⟨found, isGathered, same, -⟩ := run.at_turn keyed references objects declared
    obtain rfl := same.symm.trans present
    exact .relationship declared relational isGathered
  · rename_i absent
    have notLinked : ¬ IsLinked name before property := fun linked =>
      (Keyed.get?_eq_none_iff _ _).mp absent ((run.isLinked_iff keyed references objects).mp linked)
    obtain ⟨flat, flattened, ⟨compound, rfl⟩ | ⟨notCompound, column, built, rfl⟩⟩ :=
      compound_or_column (inContext_eq_ok.mp compiled)
    · exact .leftOut notLinked flattened compound
    · exact .column notLinked flattened notCompound built

/-- What is left out, and was declared with the same schema when the entity's turn came, can only be
read. -/
theorem readOnly_of_leftOut {flat : FlatSchema}
    (declared : (property, schema) ∈ before.registry.declared name)
    (notLinked : ¬ IsLinked name before property)
    (flattened : after.registry.flatten property schema = .ok flat) (compound : flat.IsCompound) :
    flat.keywords.readOnly? = .ok (some true) := by
  obtain ⟨found, -, -, untilNow, afterwards⟩ := run.at_turn keyed references objects declared
  have whole := Registry.isWellKeyed_declared keyed run.registered run.ownFound _ declared
  have alike : Alike FlatSchema.SameKind
      ((turn name before property).registry.flatten property schema)
      (after.registry.flatten property schema) :=
    afterwards.flatten_alike (untilNow.keyed keyed) whole
  rw [flattened] at alike
  obtain ⟨flatThen, flattenedThen, same⟩ := alike.of_ok_right
  by_contra writable
  exact notLinked ⟨schema, declared, flatThen, flattenedThen, same.isCompound.mpr compound,
    same.readOnly? ▸ writable⟩

end EntityRun

/-- How the properties of an entity's own schema are filed in its model, once the relationships of
the entity are linked. -/
structure Files (name : String) (before after : Compilation) (own : Registry.OwnSchema)
    (model : Model) : Prop where
  distinct : Distinct (propertiesIn own.fields)
  /-- The properties of the model are those of the own schema, each filed once and in its place,
  without those that are left out. -/
  filed : ∃ made, List.Forall₂ (fun field filed =>
      Filed name before after (requiredOf own.fields) field.1 field.2 filed)
    (propertiesIn own.fields) made ∧ model.properties = made.reduceOption
  /-- What was linked is still there. -/
  linked : ∀ property, IsLinked name before property →
    property ∈ Keyed.keys (propertiesIn own.fields)
  /-- What is left out can only be read, if its schema is the one that it had before linking, and in
  any case if the properties that the entity is composed of are objects. -/
  readOnly : ∀ field ∈ propertiesIn own.fields,
    Filed name before after (requiredOf own.fields) field.1 field.2 none →
    (field ∈ before.registry.declared name ∨ before.registry.ObjectsOnly name) →
    ∃ flat, after.registry.flatten field.1 field.2 = .ok flat ∧
      flat.keywords.readOnly? = .ok (some true)

/-- No property of an entity that becomes a model is lost, duplicated or misfiled. Each one of the
entity's own schema, as it is once the relationships are linked, is a relationship exactly if it was
declared before and held instances of entities at its turn. Every other one is a column, or is left
out if it is an object or a list that is not stored as JSON. -/
theorem compileEntity_files (keyed : before.registry.WellKeyed)
    (references : before.registry.RefersLocally) (objects : before.registry.TablesAreObjects)
    (compiled : (compileEntity config name).runOn before = (.ok (some model), after)) :
    ∃ schema own, after.registry.get? name = some schema ∧
      after.registry.ownSchema name schema = .ok own ∧ Files name before after own model := by
  obtain ⟨run⟩ := entityRun_of_compileEntity compiled
  obtain ⟨schema, registered, ownFound⟩ := run.ownAfter keyed
  have steps : Steps [] before after := (linkProperties_moves name run.properties).steps run.linked
  have distinct := Registry.declared_eq registered ownFound ▸
    (steps.keyed keyed).distinct_declared name
  refine ⟨schema, _, registered, ownFound, distinct, ?_, ?_, ?_⟩
  · obtain ⟨declared, found, properties⟩ := (modelOf_of_model run.built).properties
    rw [propertiesOf_eq_ok found] at properties
    obtain ⟨made, each, same⟩ := modelProperties_eq_ok properties
    exact ⟨made, each.imp fun field filed =>
      run.filed_of_compiledProperty? keyed references objects, same⟩
  · intro property linked
    obtain ⟨relationship, present⟩ := Keyed.get?_of_mem_keys
      ((run.isLinked_iff keyed references objects).mp linked)
    exact run.declared_of_gathered keyed (Keyed.mem_of_get? present)
  · rintro ⟨property, schema⟩ member filed either
    cases filed with
    | @leftOut flat notLinked flattened compound =>
      have asBefore : (property, schema) ∈ before.registry.declared name := by
        rcases either with same | onlyObjects
        · exact same
        have written := run.keysWritten keyed references objects
        have present := Keyed.get?_of_mem distinct member
        have now := written.declared keyed onlyObjects property
        rw [Registry.declared_eq registered ownFound] at now
        rcases now with same | ⟨value, isValue, isKey⟩
        · exact Keyed.mem_of_get? (same.symm.trans present)
        · obtain rfl := Option.some.inj (isValue.symm.trans present)
          exact absurd compound (isKey.not_isCompound flattened)
      exact ⟨flat, flattened,
        run.readOnly_of_leftOut keyed references objects asBefore notLinked flattened compound⟩

/-- Employees have a division, a badge that can only be read, and notes that are stored as JSON. -/
def payroll : Registry where
  entries := [
    ("Division", .obj [("type", .str "object"), ("x-tablename", .str "division"),
      ("properties", .obj [("id", .obj [("type", .str "integer"),
        ("x-primary-key", .bool true)])])]),
    ("Employee", .obj [("type", .str "object"), ("x-tablename", .str "employee"),
      ("properties", .obj [("division", .obj [("$ref", .str "#/Division")]),
        ("badge", .obj [("type", .str "object"), ("readOnly", .bool true)]),
        ("notes", .obj [("type", .str "object"), ("x-json", .bool true)])])])]
  place := none
  documents := Documents.empty

/-- The division of employees is linked, their notes are a column, and their badge is left out. The
key of divisions is a column, too. -/
theorem compileEntity_files_payroll : payroll.WellKeyed ∧ payroll.RefersLocally ∧
    payroll.TablesAreObjects ∧ ∃ model after own,
      (compileEntity Config.usual "Employee").runOn (start payroll) = (.ok (some model), after) ∧
      Files "Employee" (start payroll) after own model ∧
      Keyed.keys (propertiesIn own.fields) = ["division", "badge", "notes", "division_id"] ∧
      model.properties.map ModelProperty.name = ["division", "notes", "division_id"] := by
  have keyed : payroll.WellKeyed := Registry.wellKeyed_of_entries (by decide) (by decide +kernel)
  have references : payroll.RefersLocally := by decide +kernel
  have objects : payroll.TablesAreObjects := by
    refine Registry.tablesAreObjects_of_entries fun entry member => ?_
    simp only [payroll, List.mem_cons, List.not_mem_nil, or_false] at member
    rcases member with rfl | rfl <;> cbv
  have names : ((compileEntity Config.usual "Employee").runOn (start payroll)).1.map
      (Option.map fun model => model.properties.map ModelProperty.name) =
        .ok (some ["division", "notes", "division_id"]) := by cbv
  have declared : Keyed.keys (((compileEntity Config.usual "Employee").runOn
      (start payroll)).2.registry.declared "Employee") =
        ["division", "badge", "notes", "division_id"] := by cbv
  obtain ⟨result, after, ran⟩ : ∃ result after,
      (compileEntity Config.usual "Employee").runOn (start payroll) = (result, after) := ⟨_, _, rfl⟩
  rw [ran] at names declared
  obtain ⟨made, rfl, named⟩ := map_eq_ok.mp names
  obtain ⟨model, rfl, sameNames⟩ := Option.map_eq_some_iff.mp named
  obtain ⟨schema, own, registered, ownFound, files⟩ :=
    compileEntity_files keyed references objects ran
  exact ⟨keyed, references, objects, model, after, own, ran, files,
    Registry.declared_eq registered ownFound ▸ declared, sameNames⟩

/-- Reports are composed of contacts and of drafts, whose properties are no object and hide those of
contacts. -/
def newsroom : Registry where
  entries := [
    ("Contact", .obj [("type", .str "object"), ("properties", .obj [
      ("address", .obj [("$ref", .str "#/Address")])])]),
    ("Draft", .obj [("type", .str "object"), ("properties", .str "none")]),
    ("Report", .obj [("allOf", .arr [.obj [("$ref", .str "#/Contact")],
      .obj [("$ref", .str "#/Draft")], .obj [("x-tablename", .str "report"), ("properties", .obj [
        ("id", .obj [("type", .str "integer"), ("x-primary-key", .bool true)]),
        ("drafts", .obj [("type", .str "array"),
          ("items", .obj [("$ref", .str "#/Draft")])])])]])]),
    ("Address", .obj [("type", .str "object"), ("x-tablename", .str "address"),
      ("properties", .obj [("id", .obj [("type", .str "integer"),
        ("x-primary-key", .bool true)])])])]
  place := none
  documents := Documents.empty

/-- A property that can be written may be left out: the key that drafts get shows the address of
contacts again, when it is too late to link it. -/
theorem not_readOnly_of_leftOut : ¬ ∀ (config : Config) (name : String)
    (before after : Compilation) (model : Model), before.registry.WellKeyed →
    before.registry.RefersLocally → before.registry.TablesAreObjects →
    (compileEntity config name).runOn before = (.ok (some model), after) →
    ∀ property schema, (property, schema) ∈ after.registry.declared name →
      property ∉ model.properties.map ModelProperty.name →
      ∃ flat, after.registry.flatten property schema = .ok flat ∧
        flat.keywords.readOnly? = .ok (some true) := by
  intro always
  have keyed : newsroom.WellKeyed := Registry.wellKeyed_of_entries (by decide) (by decide +kernel)
  have references : newsroom.RefersLocally := by decide +kernel
  have objects : newsroom.TablesAreObjects := by
    refine Registry.tablesAreObjects_of_entries fun entry member => ?_
    simp only [newsroom, List.mem_cons, List.not_mem_nil, or_false] at member
    rcases member with rfl | rfl | rfl | rfl <;> cbv
  have names : ((compileEntity Config.usual "Report").runOn (start newsroom)).1.map
      (Option.map fun model => model.properties.map ModelProperty.name) =
        .ok (some ["report_id", "id", "drafts"]) := by cbv
  have shown : Keyed.get? (((compileEntity Config.usual "Report").runOn
      (start newsroom)).2.registry.declared "Report") "address" =
        some (.obj [("$ref", .str "#/Address")]) := by cbv
  have writable : (((compileEntity Config.usual "Report").runOn (start newsroom)).2.registry.flatten
      "address" (.obj [("$ref", .str "#/Address")]) >>= fun flat => flat.keywords.readOnly?) =
        .ok none := by cbv
  obtain ⟨result, after, ran⟩ : ∃ result after,
      (compileEntity Config.usual "Report").runOn (start newsroom) = (result, after) := ⟨_, _, rfl⟩
  rw [ran] at names shown writable
  obtain ⟨made, rfl, named⟩ := map_eq_ok.mp names
  obtain ⟨model, rfl, sameNames⟩ := Option.map_eq_some_iff.mp named
  have absent : "address" ∉ model.properties.map ModelProperty.name := by
    rw [sameNames]
    decide
  obtain ⟨flat, flattened, readOnly⟩ := always Config.usual "Report" (start newsroom) after model
    keyed references objects ran "address" _ (Keyed.mem_of_get? shown) absent
  rw [flattened, ok_bind, readOnly] at writable
  cases writable

end Compilation

end EntityMapping
