import EntityMapping.Proofs.Columns
import EntityMapping.Proofs.WellKeyed

/-!
What ensuring a foreign key column does. The entity has the column in its own schema already, or
its model has a property of that name already, or the column is attached to the model, or it is
written into the registry. In the first two cases nothing changes.
-/

set_option autoImplicit false
set_option relaxedAutoImplicit false

namespace EntityMapping

namespace ForeignKey

/-- The column that a key points at: the table it is on, its flat schema and its type. -/
structure Source where
  tablename : String
  referenced : FlatSchema
  type : PrimitiveType

namespace Source

/-- The property that references the column. -/
def property (source : Source) (column : String) : String := propertyName source.tablename column

def pointsAt (source : Source) (column : String) : String := target source.tablename column

end Source

/-- The schema of a key column that is added. -/
def keySchema (type : PrimitiveType) (format : Option String) (maxLength : Option Nat)
    (nullable : Option Bool) (pointsAt : String) : Keyed Json :=
  Keyed.set (columnSchema type.spelling format maxLength nullable pointsAt) "x-dict-ignore"
    (.bool true)

/-- Fields that stand for themselves and describe a scalar column that points at another one. -/
structure IsKeySchema (fields : Keyed Json) (type : PrimitiveType) (pointsAt : String) : Prop where
  noReference : Keyed.get? fields "$ref" = none
  noFragments : Keyed.get? fields "allOf" = none
  notJson : Keyed.get? fields "x-json" = none
  type : Keyed.get? fields "type" = some (.str type.spelling)
  pointsAt : Keyed.get? fields "x-foreign-key" = some (.str pointsAt)
  keyed : (Json.obj fields).isWellKeyed = true

/-- What the schema of a column that references another one says, whichever keyword is asked for. -/
theorem get?_columnSchema (type : String) (format : Option String) (maxLength : Option Nat)
    (nullable : Option Bool) (pointsAt keyword : String) :
    Keyed.get? (columnSchema type format maxLength nullable pointsAt) keyword =
      if keyword = "x-foreign-key" then some (.str pointsAt)
      else if keyword = "nullable" then nullable.map .bool
      else if keyword = "maxLength" then maxLength.map fun length => .int length
      else if keyword = "format" then format.map .str
      else if keyword = "type" then some (.str type)
      else none := by
  simp only [columnSchema, Keyed.get?_set, Keyed.get?_setSome]
  simp only [Keyed.get?, @eq_comm _ "type"]
  cases maxLength <;> split_ifs <;> simp_all

/-- The schema of a key says nothing but its type, its length, whether it is nullable, what it points
at and that it is left out of dictionaries. -/
theorem get?_keySchema {type : PrimitiveType} {format : Option String} {maxLength : Option Nat}
    {nullable : Option Bool} {pointsAt key : String}
    (notSaid : key ∉ ["format", "maxLength", "nullable", "x-foreign-key", "x-dict-ignore"]) :
    Keyed.get? (keySchema type format maxLength nullable pointsAt) key =
      Keyed.get? [("type", Json.str type.spelling)] key := by
  simp only [List.mem_cons, List.not_mem_nil, or_false, not_or] at notSaid
  obtain ⟨notFormat, notLength, notNullable, notKey, notIgnored⟩ := notSaid
  rw [keySchema, Keyed.get?_set_of_ne _ _ notIgnored, get?_columnSchema, if_neg notKey,
    if_neg notNullable, if_neg notLength, if_neg notFormat]
  simp only [Keyed.get?, @eq_comm _ key]

theorem isKeySchema_keySchema (type : PrimitiveType) (format : Option String)
    (maxLength : Option Nat) (nullable : Option Bool) (pointsAt : String) :
    IsKeySchema (keySchema type format maxLength nullable pointsAt) type pointsAt := by
  refine ⟨?_, ?_, ?_, ?_, ?_, ?_⟩
  · rw [get?_keySchema (by decide)]
    rfl
  · rw [get?_keySchema (by decide)]
    rfl
  · rw [get?_keySchema (by decide)]
    rfl
  · rw [get?_keySchema (by decide)]
    rfl
  · rw [keySchema, Keyed.get?_set_of_ne _ _ (by decide), columnSchema, Keyed.get?_set_self]
  · refine Json.isWellKeyed_set (Json.isWellKeyed_set (Json.isWellKeyed_setSome
      (Json.isWellKeyed_setSome (Json.isWellKeyed_setSome ?_ _ ?_) _ ?_) _ ?_) _ rfl) _ rfl
    · simp [Json.isWellKeyed, Json.fieldsWellKeyed, Keyed.Distinct]
    all_goals
      intro present found
      obtain ⟨value, -, rfl⟩ := Option.map_eq_some_iff.mp found
      rfl

end ForeignKey

theorem KeywordReader.text?_eq_some_iff {fields : Keyed Json} {keyword text : String} :
    text? (ofFields fields) keyword = .ok (some text) ↔
      Keyed.get? fields keyword = some (.str text) := by
  cases written : Keyed.get? fields keyword with
  | none => simp [text?, as, ofFields, presentValue?, written]
  | some value =>
    cases value <;>
      simp [text?, as, ofFields, presentValue?, written, Option.filter, Json.isNull,
        KeywordForm.string, KeywordForm.refuse]

theorem KeywordReader.text?_of_str {fields : Keyed Json} {keyword text : String}
    (written : Keyed.get? fields keyword = some (.str text)) :
    text? (ofFields fields) keyword = .ok (some text) :=
  text?_eq_some_iff.mpr written

theorem PrimitiveType.parse_eq_ok {text : String} {type : PrimitiveType} :
    parse text = .ok type ↔ text = type.spelling := by
  constructor
  · intro parsed
    unfold parse at parsed
    split at parsed
    · rename_i found
      obtain rfl := Except.ok.inj parsed
      unfold ofSpelling? at found
      split_ifs at found with isInteger isNumber isString isBoolean isObject isArray
      all_goals
        obtain rfl := Option.some.inj found
        assumption
    · cases parsed
  · rintro rfl
    rw [parse, ofSpelling?_spelling]

theorem KeywordReader.get?_of_primitiveType {fields : Keyed Json} {type : PrimitiveType}
    (found : primitiveType (ofFields fields) = .ok type) :
    Keyed.get? fields "type" = some (.str type.spelling) := by
  obtain ⟨text, textFound, parsed⟩ := bind_eq_ok.mp found
  obtain ⟨written, read, present⟩ := bind_eq_ok.mp textFound
  cases written with
  | none => simp at present
  | some written =>
    obtain rfl := Except.ok.inj present
    rw [text?_eq_some_iff.mp read, PrimitiveType.parse_eq_ok.mp parsed]

/-- A column points where the keyword of foreign keys says, which must be a table and a column. -/
theorem Column.pointsAt_of_ofSchema {fields : Keyed Json} {pointsAt : String}
    {required : Option Bool} {column : Column}
    (written : Keyed.get? fields "x-foreign-key" = some (.str pointsAt))
    (built : ofSchema (.obj fields) required = .ok column) :
    Extension.foreignKeyTarget pointsAt = .ok pointsAt ∧ column.foreignKey = some pointsAt := by
  obtain ⟨_, same, -, built⟩ := flat_of_ofSchema built
  obtain rfl := Json.obj.inj same
  obtain ⟨text, found, checked⟩ := (columnOf_of_ofKeywords built).foreignKey
  rw [KeywordReader.foreignKey?, KeywordReader.text?_of_str written, Except.ok.injEq] at found
  subst found
  rw [Option.mapM_some] at checked
  obtain ⟨target, points, isTarget⟩ := map_eq_ok.mp checked
  obtain ⟨-, rfl⟩ := Extension.foreignKeyTarget_eq_ok.mp points
  exact ⟨points, isTarget.symm⟩

/-- A column that is built from the schema of a key points at the column of a table. -/
theorem ForeignKey.IsKeySchema.foreignKeyTarget {fields : Keyed Json} {type : PrimitiveType}
    {pointsAt : String} {required : Option Bool} {column : Column}
    (key : IsKeySchema fields type pointsAt)
    (built : Column.ofSchema (.obj fields) required = .ok column) :
    Extension.foreignKeyTarget pointsAt = .ok pointsAt ∧ column.foreignKey = some pointsAt :=
  Column.pointsAt_of_ofSchema key.pointsAt built

/-- A column that is built from the schema of a key points where the key points. -/
theorem ForeignKey.IsKeySchema.column_foreignKey {fields : Keyed Json} {type : PrimitiveType}
    {pointsAt : String} {required : Option Bool} {column : Column}
    (key : IsKeySchema fields type pointsAt)
    (built : Column.ofSchema (.obj fields) required = .ok column) :
    column.foreignKey = some pointsAt := (key.foreignKeyTarget built).2

namespace ForeignKey.IsKeySchema

variable {registry : Registry} {fields : Keyed Json} {type : PrimitiveType}
  {pointsAt property : String}

/-- The schema of a key is flat. -/
theorem flatten (isKey : IsKeySchema fields type pointsAt) :
    registry.flatten property (.obj fields) = .ok ⟨property, fields⟩ := by
  rw [Registry.flatten, Registry.flattenWithout,
    Registry.flattenFrom_plain isKey.noReference isKey.noFragments]

theorem typeText (isKey : IsKeySchema fields type pointsAt) :
    (FlatSchema.keywords ⟨property, fields⟩).typeText = .ok type.spelling := by
  rw [FlatSchema.keywords, KeywordReader.typeText, KeywordReader.text?_of_str isKey.type]
  rfl

theorem primitiveType (isKey : IsKeySchema fields type pointsAt) :
    (FlatSchema.keywords ⟨property, fields⟩).primitiveType = .ok type := by
  rw [KeywordReader.primitiveType, isKey.typeText]
  exact PrimitiveType.parse_eq_ok.mpr rfl

theorem json? (isKey : IsKeySchema fields type pointsAt) :
    (FlatSchema.keywords ⟨property, fields⟩).json? = .ok none := by
  simp [FlatSchema.keywords, KeywordReader.json?, KeywordReader.flag?, KeywordReader.as,
    KeywordReader.ofFields, presentValue?, isKey.notJson]

end ForeignKey.IsKeySchema

namespace Registry

open ForeignKey (Source Requirement IsKeySchema keySchema)

/-- The column of an entity that foreign keys point at. -/
def keySource (registry : Registry) (owning column : String) : Except SchemaError Source := do
  let owner ← registry.flatten owning (← registry.registered owning)
  let tablename ← match ← owner.keywords.tablename? with
    | some tablename => pure tablename
    | none => .error (.malformedRelationship (.noTablename owning))
  let referenced ← match ← registry.flatProperty? owner.fields column with
    | some referenced => pure referenced
    | none => .error (.malformedRelationship (.noReferencedProperty owning column))
  let type ← referenced.keywords.primitiveType
  if !type.isScalar then
    .error (.malformedRelationship (.notReferenceable owning column))
  return ⟨tablename, referenced, type⟩

/-- The key column that has to be added where there is none. -/
def missingKey (source : Source) (column : String) (nullable : Option Bool) :
    Except SchemaError Requirement := do
  let format ← source.referenced.keywords.format?
  let maxLength ← source.referenced.keywords.maxLength?
  let schema : Json := .obj
    (keySchema source.type format maxLength nullable (source.pointsAt column))
  return .missing (source.property column) schema (← Column.ofSchema schema none)

variable {registry next : Registry} {store after : ModelStore} {target owning column : String}
  {nullable : Option Bool}

/-- Whether a key is needed is decided by the entity's own schema, once the column that the key
points at is found. -/
theorem foreignKey_eq (registry : Registry) (target owning column : String)
    (nullable : Option Bool) :
    registry.foreignKey target owning column nullable =
      (registry.registered target >>= registry.ownSchema target) >>= fun targetOwn =>
      registry.keySource owning column >>= fun source =>
      registry.flatProperty? targetOwn.fields (source.property column) >>= fun existing =>
      match existing with
      | some existing => checkExistingKey target (source.property column) existing source.type
          (source.pointsAt column)
      | none => missingKey source column nullable := by
  unfold foreignKey keySource
  simp only [bind_assoc]
  refine bind_congr fun schema => bind_congr fun own => bind_congr fun ownerSchema =>
    bind_congr fun owner => bind_congr fun tablename => ?_
  cases tablename with
  | none => rfl
  | some tablename =>
    simp only [pure_eq_ok, ok_bind, bind_assoc]
    refine bind_congr fun referenced => ?_
    cases referenced with
    | none => rfl
    | some referenced =>
      simp only [bind_assoc]
      refine bind_congr fun type => ?_
      by_cases scalar : type.isScalar = true
      · simp only [scalar]
        refine bind_congr fun existing => ?_
        cases existing <;> rfl
      · simp [scalar]

theorem registered_eq_ok {name : String} {schema : Json} :
    registry.registered name = .ok schema ↔ registry.get? name = some schema := by
  cases found : registry.get? name <;> simp [registered, found]

theorem flatProperty?_eq_some {entity : Keyed Json} {property : String} {flat : FlatSchema} :
    registry.flatProperty? entity property = .ok (some flat) ↔
      ∃ schema, (Keyed.get? entity "properties").bind (·.get? property) = some schema ∧
        registry.flatten property schema = .ok flat := by
  unfold flatProperty?
  cases (Keyed.get? entity "properties").bind (·.get? property) with
  | none => simp
  | some schema => simp [bind_eq_ok]

/-- Where the column that a key points at is found. -/
theorem keySource_eq_ok {source : Source} : registry.keySource owning column = .ok source ↔
    ∃ schema owner, registry.get? owning = some schema ∧
      registry.flatten owning schema = .ok owner ∧
      owner.keywords.tablename? = .ok (some source.tablename) ∧
      registry.flatProperty? owner.fields column = .ok (some source.referenced) ∧
      source.referenced.keywords.primitiveType = .ok source.type ∧
      source.type.isScalar = true := by
  unfold keySource
  simp only [bind_eq_ok, registered_eq_ok]
  constructor
  · rintro ⟨schema, entry, owner, flattened, tablename, tableFound, rest⟩
    cases tablename with
    | none => simp at rest
    | some tablename =>
    simp only [pure_eq_ok, ok_bind] at rest
    obtain ⟨referenced, referencedFound, rest⟩ := bind_eq_ok.mp rest
    cases referenced with
    | none => simp at rest
    | some referenced =>
    dsimp only at rest
    obtain ⟨type, typeFound, rest⟩ := bind_eq_ok.mp rest
    by_cases scalar : type.isScalar = true
    · simp only [scalar] at rest
      obtain rfl := Except.ok.inj rest
      exact ⟨schema, owner, entry, flattened, tableFound, referencedFound, typeFound, scalar⟩
    · simp [scalar] at rest
  · rintro ⟨schema, owner, entry, flattened, tableFound, referencedFound, typeFound, scalar⟩
    refine ⟨schema, entry, owner, flattened, _, tableFound, ?_⟩
    simp [referencedFound, typeFound, scalar]

theorem checkExistingKey_eq_ok {property : String} {existing : FlatSchema} {type : PrimitiveType}
    {pointsAt : String} {requirement : Requirement} :
    checkExistingKey target property existing type pointsAt = .ok requirement ↔
      existing.keywords.typeText = .ok type.spelling ∧
        existing.keywords.foreignKey? = .ok (some pointsAt) ∧
        requirement = .satisfied property := by
  unfold checkExistingKey
  cases existing.keywords.typeText with
  | error e => simp
  | ok text =>
    by_cases sameType : text = type.spelling
    · cases existing.keywords.foreignKey? with
      | error e => simp [sameType]
      | ok found =>
        cases found with
        | none => simp [sameType]
        | some found =>
          by_cases same : found = pointsAt
          · simp [sameType, same, eq_comm]
          · simp [sameType, same]
    · simp [sameType]

/-- A key column that is missing has a schema of the form of keys, with the format and the length of
the column that it points at, and is a column. -/
theorem missingKey_iff {source : Source} {requirement : Requirement} :
    missingKey source column nullable = .ok requirement ↔
      ∃ format maxLength key, source.referenced.keywords.format? = .ok format ∧
        source.referenced.keywords.maxLength? = .ok maxLength ∧
        Column.ofSchema (.obj
          (keySchema source.type format maxLength nullable (source.pointsAt column))) none =
            .ok key ∧
        requirement = .missing (source.property column) (.obj
          (keySchema source.type format maxLength nullable (source.pointsAt column))) key := by
  constructor
  · intro missing
    obtain ⟨format, formatted, missing⟩ := bind_eq_ok.mp missing
    obtain ⟨maxLength, sized, missing⟩ := bind_eq_ok.mp missing
    obtain ⟨key, built, missing⟩ := bind_eq_ok.mp missing
    exact ⟨format, maxLength, key, formatted, sized, built, (Except.ok.inj missing).symm⟩
  · rintro ⟨format, maxLength, key, formatted, sized, built, rfl⟩
    rw [missingKey, formatted, ok_bind, sized, ok_bind]
    dsimp only
    rw [built]
    rfl

theorem missingKey_eq_ok {source : Source} {requirement : Requirement}
    (missing : missingKey source column nullable = .ok requirement) :
    ∃ fields key, requirement = .missing (source.property column) (.obj fields) key ∧
      IsKeySchema fields source.type (source.pointsAt column) ∧
      Column.ofSchema (.obj fields) none = .ok key := by
  obtain ⟨format, maxLength, key, -, -, built, isMissing⟩ := missingKey_iff.mp missing
  exact ⟨_, key, isMissing, ForeignKey.isKeySchema_keySchema .., built⟩

/-- It is only told of an entity whether it needs a key. -/
theorem exists_entry_of_foreignKey {requirement : Requirement}
    (required : registry.foreignKey target owning column nullable = .ok requirement) :
    ∃ schema, registry.get? target = some schema := by
  rw [foreignKey_eq] at required
  obtain ⟨own, found, -⟩ := bind_eq_ok.mp required
  obtain ⟨schema, isRegistered, -⟩ := bind_eq_ok.mp found
  exact ⟨schema, registered_eq_ok.mp isRegistered⟩

theorem ensureForeignKey_of_error (store : ModelStore) {e : SchemaError}
    (failed : registry.foreignKey target owning column nullable = .error e) :
    registry.ensureForeignKey store target owning column nullable = .error e := by
  simp [ensureForeignKey, failed]

theorem ensureForeignKey_of_satisfied (store : ModelStore) {property : String}
    (satisfied : registry.foreignKey target owning column nullable = .ok (.satisfied property)) :
    registry.ensureForeignKey store target owning column nullable = .ok (registry, store) := by
  simp [ensureForeignKey, satisfied]

/-- A missing key becomes a column of the model where that is built, unless it has a property of the
name, and otherwise a property of the schema. -/
theorem ensureForeignKey_of_missing (store : ModelStore) {property : String} {entry schema : Json}
    {key : Column} (missing : registry.foreignKey target owning column nullable =
      .ok (.missing property schema key)) (registered : registry.get? target = some entry) :
    registry.ensureForeignKey store target owning column nullable = .ok
      (if ModelStore.isBuilt store target then
        (registry, if ModelStore.hasProperty store target property then store
          else ModelStore.update (fun model => model.addColumn property schema key) target store)
      else (registry.insert target (wrap entry (propertyFragment property schema)), store)) := by
  rw [ensureForeignKey, missing, ok_bind]
  dsimp only
  by_cases isBuilt : ModelStore.isBuilt store target = true
  · rw [if_pos isBuilt, if_pos isBuilt, ModelStore.attachColumn, if_pos isBuilt, ok_bind]
    split <;> rfl
  · rw [if_neg isBuilt, if_neg isBuilt, replace, if_pos (contains_of_get? registered), ok_bind,
      registered, Option.getD_some]
    rfl

/-- Where it is told whether an entity needs a key, the key is ensured: neither adding a column to a
model nor replacing an entry can fail after that. -/
theorem exists_ensureForeignKey (store : ModelStore) {requirement : Requirement}
    (required : registry.foreignKey target owning column nullable = .ok requirement) :
    ∃ next after, registry.ensureForeignKey store target owning column nullable =
      .ok (next, after) := by
  cases requirement with
  | satisfied property => exact ⟨_, _, ensureForeignKey_of_satisfied store required⟩
  | missing property schema key =>
    obtain ⟨entry, registered⟩ := exists_entry_of_foreignKey required
    exact ⟨_, _, ensureForeignKey_of_missing store required registered⟩

/-- What ensuring a key does to a registry and to the models, given the schema of the entity that
needs the key, its own part, and the column that the key points at. -/
inductive EnsuresKey (registry : Registry) (store : ModelStore) (target column : String)
    (schema : Json) (own : OwnSchema) (source : Source) : Registry → ModelStore → Prop
  /-- The entity has the column already. -/
  | satisfied {existing : FlatSchema} :
      registry.flatProperty? own.fields (source.property column) = .ok (some existing) →
      existing.keywords.typeText = .ok source.type.spelling →
      existing.keywords.foreignKey? = .ok (some (source.pointsAt column)) →
      EnsuresKey registry store target column schema own source registry store
  /-- The model has a property of that name, whatever it is. -/
  | taken : registry.flatProperty? own.fields (source.property column) = .ok none →
      ModelStore.hasProperty store target (source.property column) = true →
      EnsuresKey registry store target column schema own source registry store
  | attached {fields : Keyed Json} {key : Column} :
      registry.flatProperty? own.fields (source.property column) = .ok none →
      IsKeySchema fields source.type (source.pointsAt column) →
      Column.ofSchema (.obj fields) none = .ok key →
      ModelStore.isBuilt store target = true →
      ModelStore.hasProperty store target (source.property column) = false →
      EnsuresKey registry store target column schema own source registry
        (ModelStore.update (fun model => model.addColumn (source.property column) (.obj fields) key)
          target store)
  | written {fields : Keyed Json} :
      registry.flatProperty? own.fields (source.property column) = .ok none →
      IsKeySchema fields source.type (source.pointsAt column) →
      (∃ key, Column.ofSchema (.obj fields) none = .ok key) →
      ModelStore.isBuilt store target = false →
      EnsuresKey registry store target column schema own source
        (registry.insert target
          (wrap schema (propertyFragment (source.property column) (.obj fields)))) store

/-- What ensuring a key does where it succeeds. -/
theorem ensuresKey_of_ensureForeignKey
    (ensured : registry.ensureForeignKey store target owning column nullable = .ok (next, after)) :
    ∃ schema own source, registry.get? target = some schema ∧
      registry.ownSchema target schema = .ok own ∧ registry.keySource owning column = .ok source ∧
      registry.EnsuresKey store target column schema own source next after := by
  obtain ⟨requirement, required, -⟩ := bind_eq_ok.mp ensured
  have decided := required
  rw [foreignKey_eq] at decided
  obtain ⟨own, found, decided⟩ := bind_eq_ok.mp decided
  obtain ⟨schema, isRegistered, ownFound⟩ := bind_eq_ok.mp found
  have entry := registered_eq_ok.mp isRegistered
  obtain ⟨source, sourceFound, decided⟩ := bind_eq_ok.mp decided
  obtain ⟨existing, propertyFound, decided⟩ := bind_eq_ok.mp decided
  refine ⟨schema, own, source, entry, ownFound, sourceFound, ?_⟩
  cases existing with
  | some existing =>
    obtain ⟨type, pointsAt, rfl⟩ := checkExistingKey_eq_ok.mp decided
    rw [ensureForeignKey_of_satisfied store required, Except.ok.injEq, Prod.mk.injEq] at ensured
    obtain ⟨rfl, rfl⟩ := ensured
    exact .satisfied propertyFound type pointsAt
  | none =>
    obtain ⟨fields, key, rfl, isKey, built⟩ := missingKey_eq_ok decided
    rw [ensureForeignKey_of_missing store required entry, Except.ok.injEq] at ensured
    split at ensured
    · rename_i isBuilt
      obtain ⟨rfl, changed⟩ := Prod.mk.inj ensured
      split at changed
      · rename_i has
        exact changed ▸ .taken propertyFound has
      · rename_i lacks
        exact changed ▸ .attached propertyFound isKey built isBuilt (by simpa using lacks)
    · rename_i notBuilt
      obtain ⟨rfl, rfl⟩ := Prod.mk.inj ensured
      exact .written propertyFound isKey ⟨key, built⟩ (by simpa using notBuilt)

/-- A key that is missing once is missing again as long as the registry is the same; where the
model has a property of that name, nothing changes. -/
theorem ensureForeignKey_of_hasProperty {schema : Json} {own : OwnSchema} {source : Source}
    {others : ModelStore}
    (ensured : registry.ensureForeignKey store target owning column nullable = .ok (next, after))
    (entry : registry.get? target = some schema)
    (ownFound : registry.ownSchema target schema = .ok own)
    (sourceFound : registry.keySource owning column = .ok source)
    (missing : registry.flatProperty? own.fields (source.property column) = .ok none)
    (has : ModelStore.hasProperty others target (source.property column) = true) :
    registry.ensureForeignKey others target owning column nullable = .ok (registry, others) := by
  obtain ⟨requirement, required, -⟩ := bind_eq_ok.mp ensured
  have recomputed := required
  rw [foreignKey_eq, registered_eq_ok.mpr entry, ok_bind, ownFound, ok_bind, sourceFound, ok_bind,
    missing, ok_bind] at recomputed
  obtain ⟨fields, key, rfl, -, -⟩ := missingKey_eq_ok recomputed
  have built : ModelStore.isBuilt others target = true := by
    cases found : ModelStore.get? others target <;>
      simp_all [ModelStore.isBuilt, ModelStore.hasProperty]
  simp [ensureForeignKey, required, built, has]

end Registry

end EntityMapping
