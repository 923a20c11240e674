import Mathlib
import EntityMapping.Artifacts.Model
import EntityMapping.Proofs.WellFormedness

/-!
Artifacts that are read again. A record is written field by field, fields without a value left out,
and read by the names of its fields; so what is written is found, as long as names differ, and what
was left out is read as having no value. Models come back as they were, through all that they
consist of. One thing is lost on the way: a default value of a column that is null cannot be told
from none. No column that is made from a schema has one.
-/

set_option autoImplicit false
set_option relaxedAutoImplicit false

namespace EntityMapping

namespace Record

open Keyed (Distinct)

section Writing

variable {entries : Keyed (Option Json)} {name : String}

/-- Fields that are written one after another, as far as they have values. -/
def written (entries : Keyed (Option Json)) : Keyed Json :=
  List.flatMap (fun entry => sometimes entry.1 entry.2) entries

theorem get?_sometimes (name other : String) (value : Option Json) :
    Keyed.get? (sometimes name value) other = if name = other then value else none := by
  cases value <;> simp [sometimes, Keyed.get?_cons]

theorem get?_written_of_notMem (absent : name ∉ Keyed.keys entries) :
    Keyed.get? (written entries) name = none := by
  induction entries with
  | nil => rfl
  | cons entry rest ih =>
    rw [Keyed.keys_cons, List.mem_cons, not_or] at absent
    rw [written, List.flatMap_cons, Keyed.get?_append, get?_sometimes, if_neg (Ne.symm absent.1)]
    exact ih absent.2

/-- Fields with different names are found as they are written. -/
theorem get?_written (distinct : Distinct entries) :
    ∀ entry ∈ entries, Keyed.get? (written entries) entry.1 = entry.2 := by
  induction entries with
  | nil => simp
  | cons entry rest ih =>
    obtain ⟨fresh, distinct⟩ := (Keyed.distinct_cons _ _).mp distinct
    intro other member
    rw [written, List.flatMap_cons, Keyed.get?_append, get?_sometimes]
    rcases List.mem_cons.mp member with rfl | later
    · rw [if_pos rfl]
      exact (congrArg _ (get?_written_of_notMem fresh)).trans Option.or_none
    · have different : entry.1 ≠ other.1 := fun same =>
        fresh (List.mem_map.mpr ⟨other, later, same.symm⟩)
      rw [if_neg different]
      exact ih distinct other later

/-- How the fields of a record are written: entries under its names, in their order, and those left
out that have no value. -/
structure Writes (names : List String) (entries : Keyed (Option Json)) (fields : Keyed Json) :
    Prop where
  keys : Keyed.keys entries = names
  fields : written entries = fields

namespace Writes

variable {names : List String} {fields : Keyed Json}

theorem found (writes : Writes names entries fields) (distinct : names.Nodup) :
    ∀ entry ∈ entries, Keyed.get? fields entry.1 = entry.2 := by
  have distinctEntries : Distinct entries := by rwa [Distinct, writes.keys]
  rw [← writes.fields]
  exact get?_written distinctEntries

/-- The kind may be written beside the fields, as long as no field has its name. -/
theorem found_kinded (writes : Writes names entries fields) (distinct : names.Nodup)
    (noKind : "kind" ∉ names) (kind : Json) :
    ∀ entry ∈ entries, Keyed.get? (("kind", kind) :: fields) entry.1 = entry.2 := by
  intro entry member
  have different : "kind" ≠ entry.1 := fun same =>
    noKind (writes.keys ▸ List.mem_map.mpr ⟨entry, member, same.symm⟩)
  rw [Keyed.get?_cons, if_neg different, writes.found distinct entry member]

end Writes

end Writing

section Reading

variable {α β : Type} {record : Record} {name : String} {read : Json → Option α}
  {write : α → Json} {value : Json} {item : α} {given : Option α}

/-- What is said by a value that may be absent; null says nothing. -/
def said : Option Json → Option Json
  | some .null => none
  | value => value

theorem said_some (notNull : value ≠ .null) : said (some value) = some value := by
  cases value with
  | null => exact absurd rfl notNull
  | _ => rfl

theorem said_orNull (value : Option Json) : said (some (orNull value)) = said value := by
  cases value <;> rfl

theorem said_eq_self_iff {value : Option Json} : said value = value ↔ value ≠ some .null := by
  rcases value with _ | value
  · simp [said]
  · cases value <;> simp [said]

theorem need_eq (found : record name = some value) : record.need name read = read value := by
  rw [need, found, Option.bind_some]

theorem orUsual_eq {usual : α} (found : record name = some value) :
    record.orUsual name usual read = read value := by
  rw [orUsual, found]

theorem maybe_eq_said : record.maybe name read =
    match said (record name) with
    | none => some none
    | some value => (read value).map some := by
  unfold maybe said
  rcases record name with _ | value
  · rfl
  · cases value <;> rfl

theorem maybe_any : record.maybe name some = some (said (record name)) := by
  rw [maybe_eq_said]
  cases said (record name) <;> rfl

/-- A list is read item by item. -/
theorem listOf?_map {write : β → Json} {image : β → α}
    (reads : ∀ item, read (write item) = some (image item)) (items : List β) :
    listOf? read (.arr (items.map write)) = some (items.map image) := by
  have same : read ∘ write = fun item => pure (image item) := funext reads
  rw [listOf?, Json.items?, Option.bind_some, List.mapM_map, same, List.mapM_pure]
  rfl

/-- Whatever is written is read as it was; null is not written. -/
structure Restores (read : Json → Option α) (write : α → Json) : Prop where
  reads : ∀ item, read (write item) = some item
  notNull : ∀ item, write item ≠ .null

namespace Restores

theorem need (restores : Restores read write) (found : record name = some (write item)) :
    record.need name read = some item :=
  (need_eq found).trans (restores.reads item)

theorem orUsual {usual : α} (restores : Restores read write)
    (found : record name = some (write item)) : record.orUsual name usual read = some item :=
  (orUsual_eq found).trans (restores.reads item)

theorem said_map (restores : Restores read write) (given : Option α) :
    said (given.map write) = given.map write := by
  cases given with
  | none => rfl
  | some item => exact said_some (restores.notNull item)

theorem maybe_of_said (restores : Restores read write)
    (found : said (record name) = given.map write) : record.maybe name read = some given := by
  rw [maybe_eq_said, found]
  cases given with
  | none => rfl
  | some item => exact congrArg (Option.map some) (restores.reads item)

/-- A field that is left out where it has no value. -/
theorem maybe (restores : Restores read write) (found : record name = given.map write) :
    record.maybe name read = some given :=
  restores.maybe_of_said (by rw [found, restores.said_map])

/-- A field that is null where it has no value. -/
theorem maybe_orNull (restores : Restores read write)
    (found : record name = some (orNull (given.map write))) :
    record.maybe name read = some given :=
  restores.maybe_of_said (by rw [found, said_orNull, restores.said_map])

theorem list (restores : Restores read write) :
    Restores (listOf? read) fun items => .arr (items.map write) where
  reads items := (listOf?_map restores.reads items).trans (congrArg some (List.map_id' items))
  notNull _ := nofun

end Restores

theorem restores_string : Restores Json.string? .str := ⟨fun _ => rfl, nofun⟩

theorem restores_bool : Restores Json.bool? .bool := ⟨fun _ => rfl, nofun⟩

theorem restores_fields : Restores Json.fields? .obj := ⟨fun _ => rfl, nofun⟩

theorem restores_texts : Restores (listOf? Json.string?) Json.texts := restores_string.list

theorem restores_alternative (kinded : Bool) : Restores (alternative? kinded) .str :=
  ⟨fun _ => rfl, nofun⟩

theorem restores_nat : Restores Json.nat? fun number => .int number where
  reads number := by simp [Json.nat?]
  notNull _ := nofun

end Reading

end Record

namespace Column

open Record (said restores_string restores_bool restores_fields restores_nat restores_alternative
  maybe_any)

/-- The fields of a column with their values. -/
def entries (column : Column) : Keyed (Option Json) := [
  ("type", some (.str column.type.spelling)),
  ("column_type", some (.str column.columnType.spelling)),
  ("format", column.format.map .str),
  ("max_length", column.maxLength.map fun length : Nat => .int length),
  ("nullable", some (.bool column.nullable)),
  ("primary_key", some (.bool column.primaryKey)),
  ("autoincrement", some (.bool column.autoincrement)),
  ("index", some (.bool column.index)),
  ("unique", some (.bool column.unique)),
  ("foreign_key", column.foreignKey.map .str),
  ("default", column.default),
  ("description", column.description.map .str),
  ("kwargs", column.arguments.map .obj),
  ("dict_ignore", some (.bool column.dictIgnore)),
  ("read_only", some (.bool column.readOnly)),
  ("write_only", some (.bool column.writeOnly))]

theorem writes (column : Column) : Record.Writes fieldNames column.entries column.toFields where
  keys := rfl
  fields := by
    -- The length becomes an integer before it is written, so what is left out is told first.
    cases isSet : column.maxLength <;>
      simp [Record.written, entries, toFields, isSet, Record.always, Record.sometimes]

/-- What a written column is read as: a default value that is null counts as none. -/
def asRead (column : Column) : Column := { column with default := said column.default }

theorem asRead_eq_self_iff {column : Column} :
    column.asRead = column ↔ column.default ≠ some .null := by
  rw [← Record.said_eq_self_iff]
  exact ⟨congrArg Column.default,
    congrArg fun default => ({ column with default := default } : Column)⟩

/-- A column is read from any record in which its fields are found. -/
theorem ofRecord?_of_found {record : Record} {column : Column} (kinded : Bool)
    (found : ∀ entry ∈ column.entries, record entry.1 = entry.2) :
    ofRecord? kinded record = some column.asRead := by
  simp only [entries, List.forall_mem_cons, List.not_mem_nil, false_imp_iff, implies_true,
    and_true] at found
  obtain ⟨type, columnType, format, maxLength, nullable, primaryKey, autoincrement, index, unique,
    foreignKey, default, description, arguments, dictIgnore, readOnly, writeOnly⟩ := found
  rw [ofRecord?, (restores_alternative kinded).need type,
    (restores_alternative kinded).need columnType, restores_string.maybe format,
    restores_nat.maybe maxLength, restores_bool.need nullable, restores_bool.orUsual primaryKey,
    restores_bool.orUsual autoincrement, restores_bool.orUsual index, restores_bool.orUsual unique,
    restores_string.maybe foreignKey, maybe_any, default, restores_string.maybe description,
    restores_fields.maybe arguments, restores_bool.orUsual dictIgnore,
    restores_bool.orUsual readOnly, restores_bool.orUsual writeOnly]
  simp only [Option.bind_eq_bind, Option.bind_some, PrimitiveType.ofSpelling?_spelling,
    ColumnType.ofSpelling?_spelling]
  rfl

end Column

namespace Backref

open Record (restores_string restores_bool)

theorem restores : Record.Restores ofJson? toJson where
  reads backref := by
    simp only [ofJson?, toJson, Record.ofJson?, Option.bind_eq_bind, Option.bind_some,
      Option.bind_eq_some_iff]
    exact ⟨_, restores_string.need rfl, _, restores_bool.maybe_orNull rfl, rfl⟩
  notNull _ := nofun

end Backref

namespace CompositeIndex

open Record (restores_string restores_bool restores_texts)

theorem restores : Record.Restores ofJson? toJson where
  reads index := by
    simp only [ofJson?, toJson, Record.ofJson?, Option.bind_eq_bind, Option.bind_some,
      Option.bind_eq_some_iff]
    exact ⟨_, restores_string.maybe_orNull rfl, _, restores_texts.need rfl, _,
      restores_bool.need rfl, rfl⟩
  notNull _ := nofun

end CompositeIndex

namespace CompositeUnique

open Record (restores_string restores_texts)

theorem restores : Record.Restores ofJson? toJson where
  reads constraint := by
    simp only [ofJson?, toJson, Record.ofJson?, Option.bind_eq_bind, Option.bind_some,
      Option.bind_eq_some_iff]
    exact ⟨_, restores_string.maybe_orNull rfl, _, restores_texts.need rfl, rfl⟩
  notNull _ := nofun

end CompositeUnique

namespace Relationship

open Record (restores_string restores_bool restores_fields restores_alternative)

/-- The fields of a relationship with their values. -/
def entries (relationship : Relationship) : Keyed (Option Json) := [
  ("type", some (.str relationship.type.spelling)),
  ("model_name", some (.str relationship.modelName)),
  ("foreign_key_column", some (.str relationship.foreignKeyColumn)),
  ("nullable", relationship.nullable.map .bool),
  ("description", relationship.description.map .str),
  ("write_only", relationship.writeOnly.map .bool),
  ("backref", relationship.backref.map Backref.toJson),
  ("secondary", relationship.secondary.map .str),
  ("kwargs", relationship.arguments.map .obj)]

theorem writes (relationship : Relationship) :
    Record.Writes fieldNames relationship.entries relationship.toFields where
  keys := rfl
  fields := by simp [Record.written, entries, toFields, Record.always, Record.sometimes]

/-- A relationship is read from any record in which its fields are found. -/
theorem ofRecord?_of_found {record : Record} {relationship : Relationship} (kinded : Bool)
    (found : ∀ entry ∈ relationship.entries, record entry.1 = entry.2) :
    ofRecord? kinded record = some relationship := by
  simp only [entries, List.forall_mem_cons, List.not_mem_nil, false_imp_iff, implies_true,
    and_true] at found
  obtain ⟨type, modelName, foreignKeyColumn, nullable, description, writeOnly, backref, secondary,
    arguments⟩ := found
  rw [ofRecord?, (restores_alternative kinded).need type, restores_string.need modelName,
    restores_string.need foreignKeyColumn, restores_bool.maybe nullable,
    restores_string.maybe description, restores_bool.maybe writeOnly,
    Backref.restores.maybe backref, restores_string.maybe secondary,
    restores_fields.maybe arguments]
  simp only [Option.bind_eq_bind, Option.bind_some, RelationshipType.ofSpelling?_spelling]
  rfl

end Relationship

namespace PropertyArtifacts

/-- What written artifacts are read as. -/
def asRead : PropertyArtifacts → PropertyArtifacts
  | .column found => .column found.asRead
  | .relationship found => .relationship found

theorem ofJson?_toJson (artifacts : PropertyArtifacts) :
    ofJson? artifacts.toJson = some artifacts.asRead := by
  cases artifacts with
  | column column =>
    have found := column.writes.found_kinded (by decide) (by decide) (.str "column")
    have read := Column.ofRecord?_of_found true found
    simp only [ofJson?, toJson, Keyed.get?_cons, if_true, Option.bind_some, ofKind?,
      Record.ofJson?, Option.bind_eq_bind, read, asRead]
    rfl
  | relationship relationship =>
    have found := relationship.writes.found_kinded (by decide) (by decide) (.str "relationship")
    have read := Relationship.ofRecord?_of_found true found
    simp only [ofJson?, toJson, Keyed.get?_cons, if_true, Option.bind_some, ofKind?,
      Record.ofJson?, Option.bind_eq_bind, read, asRead]
    rfl

theorem asRead_eq_self_iff {artifacts : PropertyArtifacts} : artifacts.asRead = artifacts ↔
    ∀ column, artifacts = .column column → column.default ≠ some .null := by
  cases artifacts <;> simp [asRead, Column.asRead_eq_self_iff]

end PropertyArtifacts

namespace ModelProperty

open Record (restores_string)

/-- What a written property is read as. -/
def asRead (property : ModelProperty) : ModelProperty :=
  { property with artifacts := property.artifacts.asRead }

theorem ofJson?_toJson (property : ModelProperty) :
    ofJson? property.toJson = some property.asRead := by
  simp only [ofJson?, toJson, Record.ofJson?, Option.bind_eq_bind, Option.bind_some,
    Option.bind_eq_some_iff]
  exact ⟨_, restores_string.need rfl, _,
    (Record.need_eq rfl).trans property.artifacts.ofJson?_toJson, _, Record.need_eq rfl, rfl⟩

end ModelProperty

namespace Model

open Record (restores_string restores_texts restores_fields)

/-- The fields of a model with their values. -/
def entries (model : Model) : Keyed (Option Json) := [
  ("name", some (.str model.name)),
  ("tablename", some (.str model.tablename)),
  ("parent", model.parent.map .str),
  ("description", model.description.map .str),
  ("properties", some (.arr (model.properties.map ModelProperty.toJson))),
  ("required", some (Json.texts model.required)),
  ("backrefs", some (.obj model.backrefs)),
  ("composite_indexes", some (.arr (model.compositeIndexes.map CompositeIndex.toJson))),
  ("composite_uniques", some (.arr (model.compositeUniques.map CompositeUnique.toJson))),
  ("mixins", some (Json.texts model.mixins)),
  ("kwargs", model.arguments.map .obj)]

theorem writes (model : Model) : Record.Writes fieldNames model.entries model.toFields where
  keys := rfl
  fields := by simp [Record.written, entries, toFields, Record.always, Record.sometimes]

/-- What a written model is read as: default values of columns that are null count as none. -/
def asRead (model : Model) : Model :=
  { model with properties := model.properties.map ModelProperty.asRead }

/-- A written model can be read, with all that it consists of. -/
theorem ofJson?_toJson (model : Model) : ofJson? model.toJson = some model.asRead := by
  have found := model.writes.found (by decide)
  simp only [entries, List.forall_mem_cons, List.not_mem_nil, false_imp_iff, implies_true,
    and_true] at found
  obtain ⟨name, tablename, parent, description, properties, required, backrefs, indexes, uniques,
    mixins, arguments⟩ := found
  have readProperties : Record.need (Keyed.get? model.toFields) "properties"
      (Record.listOf? ModelProperty.ofJson?) =
        some (model.properties.map ModelProperty.asRead) :=
    (Record.need_eq properties).trans (Record.listOf?_map ModelProperty.ofJson?_toJson _)
  rw [ofJson?, toJson, Record.ofJson?, Option.bind_eq_bind, Option.bind_some,
    restores_string.need name, restores_string.need tablename, restores_string.maybe parent,
    restores_string.maybe description, readProperties, restores_texts.orUsual required,
    restores_fields.orUsual backrefs, CompositeIndex.restores.list.orUsual indexes,
    CompositeUnique.restores.list.orUsual uniques, restores_texts.orUsual mixins,
    restores_fields.maybe arguments]
  rfl

theorem mem_columns {model : Model} {name : String} {column : Column} :
    (name, column) ∈ model.columns ↔ ∃ property ∈ model.properties,
      property.name = name ∧ property.artifacts = .column column := by
  simp only [columns, List.mem_filterMap]
  refine exists_congr fun property => and_congr_right fun _ => ?_
  cases property.artifacts <;> simp [PropertyArtifacts.column?]

/-- A model is read as it is exactly if no default value of its columns is null. -/
theorem asRead_eq_self_iff {model : Model} :
    model.asRead = model ↔ ∀ name column, (name, column) ∈ model.columns →
      column.default ≠ some .null := by
  have kept : ∀ property : ModelProperty, property.asRead = property ↔
      ∀ column, property.artifacts = .column column → column.default ≠ some .null := by
    intro property
    rw [← PropertyArtifacts.asRead_eq_self_iff]
    cases property
    simp [ModelProperty.asRead]
  calc model.asRead = model
    _ ↔ model.properties.map ModelProperty.asRead = model.properties := by
      cases model
      simp [asRead]
    _ ↔ ∀ property ∈ model.properties, property.asRead = property := by
      rw [← List.map_inj_left, List.map_id']
    _ ↔ ∀ name column, (name, column) ∈ model.columns → column.default ≠ some .null := by
      simp only [kept, mem_columns]
      constructor
      · rintro each name column ⟨property, member, -, isColumn⟩
        exact each property member column isColumn
      · exact fun each property member column isColumn =>
          each property.name column ⟨property, member, rfl, isColumn⟩

/-- Models survive being written and read, with all that they consist of, exactly if no default
value of a column is null. Columns that are made from schemas have no such default value; so
whatever a compilation emits survives. -/
theorem read_written :
    (∀ model : Model, ofJson? model.toJson = some model ↔
      ∀ name column, (name, column) ∈ model.columns → column.default ≠ some .null) ∧
    (∀ schema required column, Column.ofSchema schema required = .ok column →
      column.default ≠ some .null) ∧
    ∀ (registry : Registry) config compiled final,
      registry.compile config = (.ok compiled, final) →
        ∀ model ∈ compiled.models, ofJson? model.toJson = some model := by
  have said : ∀ column : Column, column.WellFormed → column.default ≠ some .null :=
    fun column wellFormed isNull => Bool.false_ne_true (wellFormed.default _ isNull).1.symm
  have survives : ∀ model : Model, ofJson? model.toJson = some model ↔
      ∀ name column, (name, column) ∈ model.columns → column.default ≠ some .null := by
    intro model
    rw [ofJson?_toJson, Option.some.injEq, asRead_eq_self_iff]
  refine ⟨survives, fun schema required column built =>
    said column (Column.wellFormed_of_ofSchema built),
    fun registry config compiled final run model emitted => (survives model).mpr ?_⟩
  intro name column member
  obtain ⟨-, after, ran, rfl, -⟩ := Registry.compile_eq_ok_iff.mp run
  obtain ⟨property, inModel, -, isColumn⟩ := mem_columns.mp member
  have wellFormed := (Compilation.wellFormed_of_ran ran).models model emitted
  have ofProperty := (wellFormed.properties property inModel).artifacts
  rw [isColumn] at ofProperty
  exact said column ofProperty

/-- A model with one column, which has a default value. -/
def ticketing (default : Json) : Model :=
  (named "Ticket" "ticket").addColumn "status" (.obj [("type", .str "string")]) {
    type := .string
    columnType := .string
    format := none
    maxLength := some 12
    nullable := false
    primaryKey := false
    autoincrement := false
    index := true
    unique := false
    foreignKey := none
    default := some default
    description := none
    arguments := some []
    dictIgnore := false
    readOnly := true
    writeOnly := false }

/-- Tickets are open at first. -/
def counter : Registry where
  entries := [("Ticket", .obj [("type", .str "object"), ("x-tablename", .str "ticket"),
    ("properties", .obj [("status", .obj [("type", .str "string"), ("default", .str "open")])])])]
  place := none
  documents := Documents.empty

theorem read_written_ticketing :
    ofJson? (ticketing (.str "open")).toJson = some (ticketing (.str "open")) ∧
      ofJson? (ticketing .null).toJson ≠ some (ticketing .null) ∧
      ∃ compiled final, counter.compile Config.usual = (.ok compiled, final) ∧
        compiled.models.map (fun model => model.columns.map fun entry =>
          (entry.1, entry.2.default.bind Json.string?)) = [[("status", some "open")]] ∧
        ∀ model ∈ compiled.models, ofJson? model.toJson = some model := by
  obtain ⟨survives, -, emitted⟩ := read_written
  have onlyColumn : ∀ default name column, (name, column) ∈ (ticketing default).columns →
      column.default = some default := by
    intro default name column member
    obtain ⟨-, rfl⟩ := Prod.mk.inj (List.mem_singleton.mp member)
    rfl
  have isEmitted : (counter.compile Config.usual).1.map (fun compiled =>
      compiled.models.map fun model => model.columns.map fun entry =>
        (entry.1, entry.2.default.bind Json.string?)) = .ok [[("status", some "open")]] := by cbv
  obtain ⟨compiled, succeeded, same⟩ := map_eq_ok.mp isEmitted
  refine ⟨(survives _).mpr fun name column member => ?_, fun survived => ?_, compiled, _,
    Prod.ext succeeded rfl, same, emitted _ _ _ _ (Prod.ext succeeded rfl)⟩
  · rw [onlyColumn _ name column member]
    simp
  · exact (survives _).mp survived _ _ (List.mem_singleton_self _) rfl

end Model

end EntityMapping
