import Mathlib
import EntityMapping.Proofs.Associations
import EntityMapping.Proofs.BuiltModels
import EntityMapping.Proofs.CompiledProperties
import EntityMapping.Proofs.Gathering

/-!
What a compilation emits is well formed. Columns come from properties, from foreign keys that are
attached to a model and from association tables, relationships from objects and lists; each of them
is checked where it is made. The run keeps what it has made, apart from columns that it attaches, so
all of it is well formed in the end, whether or not the entities are validated.
-/

set_option autoImplicit false
set_option relaxedAutoImplicit false

namespace EntityMapping

open ForeignKey (IsKeySchema)

namespace Relationship

/-- What holds of every relationship, wherever it is gathered. -/
structure WellFormed (relationship : Relationship) : Prop where
  object : relationship.type = .object → relationship.secondary = none
  array : relationship.type = .array → relationship.nullable = none ∧
    ∀ backref, relationship.backref = some backref → backref.uselist = none
  arguments : ∀ given, relationship.arguments = some given →
    ∀ key ∈ Keyed.keys given, key ≠ "backref" ∧ key ≠ "secondary"

/-- The schema that stands for a relationship refers to nothing itself. -/
theorem get?_propertySchema {relationship : Relationship} {keyword : String}
    (notSaid : keyword ∉ ["type", "x-de-$ref", "items", "nullable", "description", "writeOnly"]) :
    relationship.propertySchema.get? keyword = none := by
  simp only [List.mem_cons, List.not_mem_nil, or_false, not_or] at notSaid
  obtain ⟨notType, notReference, notItems, notNullable, notDescription, notWriteOnly⟩ := notSaid
  unfold propertySchema
  dsimp only [Json.get?, Json.fields?, Option.bind_some]
  rw [Keyed.get?_setSome_of_ne _ _ notWriteOnly, Keyed.get?_setSome_of_ne _ _ notDescription,
    Keyed.get?_setSome_of_ne _ _ notNullable]
  cases relationship.type <;>
    simp [referenceSchema, listSchema, Keyed.get?_cons, Ne.symm notType, Ne.symm notReference,
      Ne.symm notItems]

end Relationship

namespace Registry

variable {registry : Registry} {property : String} {schema : Json} {relationship : Relationship}

theorem arguments_of_gatherReference {type : RelationshipType}
    (gathered : registry.gatherReference type property schema = .ok relationship) :
    ∀ given, relationship.arguments = some given →
      ∀ key ∈ Keyed.keys given, key ≠ "backref" ∧ key ≠ "secondary" := by
  intro given isGiven key member
  have checked := (gatherReference_eq_ok gathered).2.1
  rw [isGiven] at checked
  have allowed := (Extension.checkArguments_eq_ok.mp checked key member).1
  simpa [Extension.Level.reserved] using allowed

/-- Every relationship that is gathered is well formed. -/
theorem wellFormed_of_gather?
    (gathered : registry.gather? property schema = .ok (some relationship)) :
    relationship.WellFormed := by
  rcases gather?_eq_some gathered with ⟨isFound, noSecondary⟩ |
    ⟨items, found, _, _, -, isFound, rfl⟩
  · refine ⟨fun _ => noSecondary, fun isArray => ?_, arguments_of_gatherReference isFound⟩
    cases (gatherReference_eq_ok isFound).1.symm.trans isArray
  · have arguments := arguments_of_gatherReference isFound
    refine ⟨fun isObject => ?_, fun _ => ⟨rfl, fun backref isBackref => ?_⟩, arguments⟩
    · cases (gatherReference_eq_ok isFound).1.symm.trans isObject
    · obtain ⟨written, -, rfl⟩ := Option.map_eq_some_iff.mp isBackref
      rfl

end Registry

namespace Extension

variable {value : Json}

theorem columnList_ne_nil {keyword : String} {columns : List String}
    (listed : columnList keyword value = .ok columns) : columns ≠ [] := by
  unfold columnList at listed
  split at listed
  · split at listed
    · cases listed
    · rename_i items notEmpty
      rintro rfl
      obtain rfl := List.forall₂_nil_right_iff.mp (mapM_eq_ok_iff.mp listed)
      exact notEmpty rfl
  · cases listed

theorem compositeIndex_ne_nil {index : CompositeIndex}
    (read : compositeIndex value = .ok index) : index.expressions ≠ [] := by
  unfold compositeIndex at read
  split at read
  · split at read
    · cases read
    · obtain ⟨name, -, read⟩ := bind_eq_ok.mp read
      obtain ⟨columns, listed, read⟩ := bind_eq_ok.mp read
      obtain ⟨unique, -, read⟩ := bind_eq_ok.mp read
      obtain rfl := Except.ok.inj read
      exact columnList_ne_nil listed
  · obtain ⟨columns, listed, read⟩ := bind_eq_ok.mp read
    obtain rfl := Except.ok.inj read
    exact columnList_ne_nil listed

theorem compositeUnique_ne_nil {unique : CompositeUnique}
    (read : compositeUnique value = .ok unique) : unique.columns ≠ [] := by
  unfold compositeUnique at read
  split at read
  · split at read
    · cases read
    · obtain ⟨name, -, read⟩ := bind_eq_ok.mp read
      obtain ⟨columns, listed, read⟩ := bind_eq_ok.mp read
      obtain rfl := Except.ok.inj read
      exact columnList_ne_nil listed
  · obtain ⟨columns, listed, read⟩ := bind_eq_ok.mp read
    obtain rfl := Except.ok.inj read
    exact columnList_ne_nil listed

/-- Mixins are added one by one, each if it is not there yet. -/
theorem nodup_addMixin {known paths next : List String}
    (added : paths.foldlM addMixin known = .ok next) (nodup : known.Nodup) : next.Nodup := by
  refine foldlM_eq_ok_induction ?_ nodup added
  intro known next path _ nodup step
  unfold addMixin at step
  split at step
  · cases step
  · split at step
    · cases step
    · rename_i isNew
      obtain rfl := Except.ok.inj step
      refine List.Nodup.append nodup (List.nodup_singleton path) ?_
      simpa using isNew

theorem nodup_mixins {paths : List String} (read : mixins value = .ok paths) : paths.Nodup := by
  unfold mixins at read
  split at read
  · exact nodup_addMixin read List.nodup_nil
  · split at read
    · cases read
    · obtain ⟨texts, -, read⟩ := bind_eq_ok.mp read
      exact nodup_addMixin read List.nodup_nil
  · cases read

/-- Arguments that are read are the ones that are given, and they are checked. -/
theorem checked_of_arguments {level : Level} {given : Keyed Json}
    (read : arguments level value = .ok given) : checkArguments level given = .ok () := by
  unfold arguments at read
  split at read
  · obtain ⟨_, checked, read⟩ := bind_eq_ok.mp read
    obtain rfl := Except.ok.inj read
    exact checked
  · cases read

end Extension

/-- What holds of a column or a relationship of a model. -/
def PropertyArtifacts.WellFormed : PropertyArtifacts → Prop
  | .column found => found.WellFormed
  | .relationship found => found.WellFormed

/-- What holds of a property of a model: what it is, and what schema is recorded for it. -/
structure ModelProperty.WellFormed (property : ModelProperty) : Prop where
  artifacts : property.artifacts.WellFormed
  uncomposed : ∃ fields, property.schema = .obj fields ∧ Keyed.get? fields "$ref" = none ∧
    Keyed.get? fields "allOf" = none
  relationship : ∀ relationship, property.artifacts = .relationship relationship →
    property.schema = relationship.propertySchema

/-- What holds of a model. -/
structure Model.WellFormed (model : Model) : Prop where
  properties : ∀ property ∈ model.properties, property.WellFormed
  indexes : ∀ index ∈ model.compositeIndexes, index.expressions ≠ []
  uniques : ∀ unique ∈ model.compositeUniques, unique.columns ≠ []
  mixins : model.mixins.Nodup
  arguments : ∀ given, model.arguments = some given → ∀ key ∈ Keyed.keys given,
    Text.IsLined key ∧ key ≠ "__tablename__" ∧ key ≠ "__table_args__"

/-- What holds of an association table: its columns have different names, and each of them points at
the column of a table that its own name tells. -/
structure AssociationTable.WellFormed (table : AssociationTable) : Prop where
  columns : ∀ side ∈ table.columns, side.column.WellFormed
  keys : ∀ side ∈ table.columns, ∃ tablename column,
    side.name = ForeignKey.propertyName tablename column ∧
      side.column.foreignKey = some (ForeignKey.target tablename column)
  names : table.first.name ≠ table.second.name

/-- What holds of all that a compilation emits. -/
structure CompiledSchema.WellFormed (compiled : CompiledSchema) : Prop where
  models : ∀ model ∈ compiled.models, model.WellFormed
  tables : ∀ table ∈ compiled.associationTables, table.WellFormed

namespace ModelProperty

/-- A column is a well formed property if it is made from the schema that is recorded. -/
theorem wellFormed_column {name : String} {schema : Json} {required : Option Bool}
    {column : Column} (built : Column.ofSchema schema required = .ok column) :
    WellFormed ⟨name, .column column, schema⟩ where
  artifacts := Column.wellFormed_of_ofSchema built
  uncomposed := by
    obtain ⟨fields, rfl, isFlat, -⟩ := Column.flat_of_ofSchema built
    simp only [Json.isFlat, Keyed.contains, Bool.and_eq_true, Bool.not_eq_true',
      Option.isSome_eq_false_iff, Option.isNone_iff_eq_none] at isFlat
    exact ⟨fields, rfl, isFlat.1, isFlat.2⟩
  relationship _ isRelationship := by cases isRelationship

theorem wellFormed_relationship {name : String} {relationship : Relationship}
    (wellFormed : relationship.WellFormed) :
    WellFormed ⟨name, .relationship relationship, relationship.propertySchema⟩ where
  artifacts := wellFormed
  uncomposed := ⟨_, rfl, Relationship.get?_propertySchema (by decide),
    Relationship.get?_propertySchema (by decide)⟩
  relationship _ same := by rw [PropertyArtifacts.relationship.inj same]

end ModelProperty

/-- A column that is attached leaves a model well formed. -/
theorem Model.WellFormed.addColumn {model : Model} {name : String} {schema : Json}
    {column : Column} {required : Option Bool} (wellFormed : model.WellFormed)
    (built : Column.ofSchema schema required = .ok column) :
    (model.addColumn name schema column).WellFormed where
  properties := List.forall_mem_append.mpr ⟨wellFormed.properties,
    List.forall_mem_singleton.mpr (ModelProperty.wellFormed_column built)⟩
  indexes := wellFormed.indexes
  uniques := wellFormed.uniques
  mixins := wellFormed.mixins
  arguments := wellFormed.arguments

namespace Registry

variable {registry : Registry} {secondary : String}

theorem wellFormed_of_associationSide {name : String} {side : AssociationColumn}
    (found : registry.associationSide secondary name = .ok side) :
    side.column.WellFormed ∧ ∃ tablename column,
      side.name = ForeignKey.propertyName tablename column ∧
        side.column.foreignKey = some (ForeignKey.target tablename column) := by
  obtain ⟨_, _, tablename, property, key, -, -, -, -, built⟩ := associationSide_eq_ok.mp found
  obtain ⟨type, format, maxLength, column, -, -, -, isColumn, rfl⟩ :=
    associationColumn_eq_ok.mp built
  have written : Keyed.get? (ForeignKey.columnSchema type format maxLength none
      (ForeignKey.target tablename property)) "x-foreign-key" =
        some (.str (ForeignKey.target tablename property)) := Keyed.get?_set_self _ _ _
  exact ⟨Column.wellFormed_of_ofSchema isColumn, tablename, property, rfl,
    (Column.pointsAt_of_ofSchema written isColumn).2⟩

theorem wellFormed_of_association {left right : String} {table : AssociationTable}
    (found : registry.association secondary left right = .ok table) : table.WellFormed := by
  obtain ⟨first, second, foundFirst, foundSecond, different, rfl⟩ := association_eq_ok.mp found
  obtain ⟨wellFormed, key⟩ := wellFormed_of_associationSide foundFirst
  obtain ⟨wellFormedToo, keyToo⟩ := wellFormed_of_associationSide foundSecond
  refine ⟨?_, ?_, different⟩
  · simpa [AssociationTable.columns] using ⟨wellFormed, wellFormedToo⟩
  · simpa [AssociationTable.columns] using ⟨key, keyToo⟩

end Registry

namespace Compilation

variable {registry : Registry} {name tablename property : String} {parent : Option String}
  {gathered : Keyed Relationship} {own : Keyed Json} {built : Model} {required : List String}

/-- A property of a model is well formed if the relationships that were gathered are. -/
theorem wellFormed_of_compiledProperty? {schema : Json} {compiled : ModelProperty}
    (relationships : ∀ entry ∈ gathered, entry.2.WellFormed)
    (found : compiledProperty? registry required gathered property schema = .ok (some compiled)) :
    compiled.WellFormed := by
  unfold compiledProperty? at found
  split at found
  · rename_i isGathered
    obtain rfl := Option.some.inj (Except.ok.inj found)
    exact ModelProperty.wellFormed_relationship (relationships _ (Keyed.mem_of_get? isGathered))
  · have stored := inContext_eq_ok.mp found
    unfold columnProperty? at stored
    obtain ⟨flat, -, stored⟩ := bind_eq_ok.mp stored
    obtain ⟨type, -, stored⟩ := bind_eq_ok.mp stored
    obtain ⟨json, -, stored⟩ := bind_eq_ok.mp stored
    dsimp only at stored
    split at stored
    · cases stored
    · obtain ⟨column, built, stored⟩ := bind_eq_ok.mp stored
      obtain rfl := Option.some.inj (Except.ok.inj stored)
      exact ModelProperty.wellFormed_column built

/-- A model is well formed if the relationships that were gathered for it are. -/
theorem wellFormed_of_model (relationships : ∀ entry ∈ gathered, entry.2.WellFormed)
    (compiled : model registry name tablename parent gathered own = .ok built) :
    built.WellFormed := by
  obtain ⟨-, -, -, -, ⟨declared, -, properties⟩, ⟨indexes, foundIndexes, hasIndexes⟩,
    ⟨uniques, foundUniques, hasUniques⟩, ⟨mixins, foundMixins, hasMixins⟩, arguments⟩ :=
    modelOf_of_model compiled
  refine ⟨fun property member => ?_, ?_, ?_, ?_, fun given isGiven key member => ?_⟩
  · obtain ⟨schema, -, found⟩ := declared_of_modelProperties properties property member
    exact wellFormed_of_compiledProperty? relationships found
  · rw [hasIndexes]
    refine getD_of_optionMapM (fun indexes => ∀ index ∈ indexes, index.expressions ≠ [])
      (List.forall_mem_nil _) (fun value found read => ?_) foundIndexes
    obtain ⟨entries, -, read⟩ := bind_eq_ok.mp read
    exact forall_of_mapM_eq_ok (fun _ _ => Extension.compositeIndex_ne_nil) read
  · rw [hasUniques]
    refine getD_of_optionMapM (fun uniques => ∀ unique ∈ uniques, unique.columns ≠ [])
      (List.forall_mem_nil _) (fun value found read => ?_) foundUniques
    obtain ⟨entries, -, read⟩ := bind_eq_ok.mp read
    exact forall_of_mapM_eq_ok (fun _ _ => Extension.compositeUnique_ne_nil) read
  · rw [hasMixins]
    exact getD_of_optionMapM List.Nodup List.nodup_nil (fun _ _ => Extension.nodup_mixins) foundMixins
  · rw [isGiven] at arguments
    obtain ⟨value, -, read⟩ := optionMapM_eq_some.mp arguments
    obtain ⟨notReserved, isDunder⟩ :=
      Extension.checkArguments_eq_ok.mp (Extension.checked_of_arguments read) key member
    refine ⟨Text.isLined_of_isDunder (isDunder rfl), ?_⟩
    simpa [Extension.Level.reserved] using notReserved

/-- What a run has made so far is well formed. -/
structure WellFormed (state : Compilation) : Prop where
  models : ∀ model ∈ state.store, model.WellFormed
  tables : ∀ table ∈ state.tables, table.WellFormed

/-- Linking keeps that: tables are well formed when they are built, and a key that is attached to a
model is a column of its schema. -/
theorem wellFormed_invariant : Invariant WellFormed where
  table wellFormed joined _ := ⟨wellFormed.models, List.forall_mem_append.mpr ⟨wellFormed.tables,
    List.forall_mem_singleton.mpr (Registry.wellFormed_of_association joined)⟩⟩
  key wellFormed ensured := by
    refine ⟨?_, wellFormed.tables⟩
    obtain ⟨schema, own, source, -, -, -, change⟩ := Registry.ensuresKey_of_ensureForeignKey ensured
    cases change with
    | satisfied => exact wellFormed.models
    | taken => exact wellFormed.models
    | written => exact wellFormed.models
    | attached _ _ built =>
      exact ModelStore.forall_mem_update wellFormed.models fun _ kept => kept.addColumn built

/-- The model of an entity is well formed. -/
theorem EntityRun.wellFormed {before after : Compilation} (run : EntityRun name before after built) :
    built.WellFormed := by
  refine wellFormed_of_model (fun entry member => ?_) run.built
  obtain ⟨schema, state, -, gathered⟩ := gathered_of_linkProperties run.linked entry member
  exact Registry.wellFormed_of_gather? gathered

theorem wellFormed_compileEntities (config : Config) (list : List String) :
    Preserves WellFormed (compileEntities config list) := by
  refine wellFormed_invariant.compileEntities config ?_
  intro name _ before after built _ wellFormed run
  exact ⟨ModelStore.forall_mem_add wellFormed.models run.wellFormed, wellFormed.tables⟩

/-- All that a run has made in the end is well formed. -/
theorem wellFormed_of_ran {registry : Registry} {config : Config} {after : Compilation}
    (ran : (compileEntities config (prepared config registry).2.registry.names).runOn
      (prepared config registry).2 = (.ok (), after)) : after.WellFormed := by
  have begins : (prepared config registry).2.WellFormed := by
    rw [prepared_eq_start]
    exact ⟨by simp [start], by simp [start]⟩
  have ends := wellFormed_compileEntities config (prepared config registry).2.registry.names _ begins
  rwa [ran] at ends

end Compilation

namespace Registry

variable {registry final : Registry} {config : Config} {result : CompiledSchema}

/-- Whatever a compilation emits is well formed. -/
theorem compile_wellFormed (compiled : registry.compile config = (.ok result, final)) :
    result.WellFormed := by
  obtain ⟨-, after, ran, rfl, -⟩ := compile_eq_ok_iff.mp compiled
  have ends := Compilation.wellFormed_of_ran ran
  exact ⟨ends.models, ends.tables⟩

/-- Doctors have patients through a table; an index of patients is over two columns. -/
def clinic : Registry where
  entries := [
    ("Doctor", .obj [("type", .str "object"), ("x-tablename", .str "doctor"),
      ("properties", .obj [
        ("id", .obj [("type", .str "integer"), ("x-primary-key", .bool true)]),
        ("patients", .obj [("type", .str "array"), ("items", .obj [("allOf", .arr [
          .obj [("$ref", .str "#/Patient")], .obj [("x-secondary", .str "treatment")]])])])])]),
    ("Patient", .obj [("type", .str "object"), ("x-tablename", .str "patient"),
      ("x-composite-index", .arr [.str "id", .str "name"]),
      ("properties", .obj [
        ("id", .obj [("type", .str "integer"), ("x-primary-key", .bool true)]),
        ("name", .obj [("type", .str "string"), ("maxLength", .int 40)])])])]
  place := none
  documents := Documents.empty

/-- The properties of the models, and the columns of the association tables. -/
def emitted (compiled : CompiledSchema) : Keyed (List String) × Keyed (List String) :=
  (compiled.models.map fun model => (model.name, model.properties.map ModelProperty.name),
    compiled.associationTables.map fun table =>
      (table.name, table.columns.map AssociationColumn.name))

/-- The models of a clinic and its only association table are well formed. -/
theorem compile_wellFormed_clinic :
    ∃ compiled final, clinic.compile Config.usual = (.ok compiled, final) ∧
      emitted compiled = ([("Doctor", ["id", "patients"]), ("Patient", ["id", "name"])],
        [("treatment", ["doctor_id", "patient_id"])]) ∧
      compiled.WellFormed := by
  have isEmitted : (clinic.compile Config.usual).1.map emitted =
      .ok ([("Doctor", ["id", "patients"]), ("Patient", ["id", "name"])],
        [("treatment", ["doctor_id", "patient_id"])]) := by cbv
  obtain ⟨compiled, succeeded, same⟩ := map_eq_ok.mp isEmitted
  exact ⟨compiled, _, Prod.ext succeeded rfl, same, compile_wellFormed (Prod.ext succeeded rfl)⟩

end Registry

end EntityMapping
