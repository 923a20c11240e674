import EntityMapping.Proofs.Outcome
import EntityMapping.Table.Column

/-!
Columns, read off their keywords. What the checks on the way of a column establish holds of every
column that is made: its storage follows from its type and format, its default is a value of its
type, what it points at is a table and a column, and no argument sets what is set otherwise.
-/

set_option autoImplicit false
set_option relaxedAutoImplicit false

namespace EntityMapping

namespace Text

/-- A table and a column, one word each, with a dot between them. -/
def IsColumnPath (text : String) : Prop :=
  ∃ table column, isWord table = true ∧ isWord column = true ∧
    text.toList = table ++ '.' :: column

theorem isColumnPath_of_isTableColumn {text : String} (checked : isTableColumn text = true) :
    IsColumnPath text := by
  have joined := join_split '.' text.toList
  simp only [isTableColumn, Bool.and_eq_true, decide_eq_true_eq] at checked
  obtain ⟨two, words⟩ := checked
  obtain ⟨table, column, isSplit⟩ := List.length_eq_two.mp two
  rw [isSplit] at joined words
  simp only [List.all_cons, List.all_nil, Bool.and_true, Bool.and_eq_true] at words
  exact ⟨table, column, words.1, words.2, joined.symm⟩

/-- A word between two low lines before it and two after it. -/
def IsLined (text : String) : Prop :=
  ∃ inner, isWord inner = true ∧ text.toList = '_' :: '_' :: (inner ++ ['_', '_'])

theorem isLined_of_isDunder {text : String} (checked : isDunder text = true) : IsLined text := by
  unfold isDunder at checked
  split at checked
  · rename_i rest begins
    split at checked
    · rename_i inner ends
      refine ⟨inner.reverse, by simpa [isWord] using checked, ?_⟩
      rw [begins, ← List.reverse_reverse rest, ends]
      simp
    · cases checked
  · cases checked

end Text

namespace Extension

variable {level : Level} {given : Keyed Json}

/-- What a foreign key points at is kept as it is written, if it is a table and a column. -/
theorem foreignKeyTarget_eq_ok {text target : String} :
    foreignKeyTarget text = .ok target ↔ Text.isTableColumn text = true ∧ target = text := by
  by_cases checked : Text.isTableColumn text = true <;>
    simp [foreignKeyTarget, refuse, checked, @eq_comm _ text]

/-- Which arguments pass: those that are not set otherwise, and for an entity only names between
low lines. -/
theorem checkArguments_eq_ok : checkArguments level given = .ok () ↔
    ∀ key ∈ Keyed.keys given, key ∉ level.reserved ∧
      (level = .entity → Text.isDunder key = true) := by
  have each : ∀ key, checkArgument level key = .ok () ↔
      key ∉ level.reserved ∧ (level = .entity → Text.isDunder key = true) := by
    intro key
    by_cases isReserved : key ∈ level.reserved
    · simp [checkArgument, refuse, isReserved]
    · by_cases isEntity : level = .entity
      · subst isEntity
        cases isLined : Text.isDunder key <;> simp [checkArgument, refuse, isReserved, isLined]
      · simp [checkArgument, isReserved, isEntity]
  rw [checkArguments, forM_eq_ok_iff]
  simp [Keyed.keys, each]

end Extension

/-- A default that is read is a value of the type that is read. -/
theorem KeywordReader.admits_of_default? {read : KeywordReader} {type : PrimitiveType}
    {value : Json} (typed : read.primitiveType = .ok type)
    (found : read.default? = .ok (some value)) : type.admits value = true := by
  obtain ⟨written, -, found⟩ := bind_eq_ok.mp found
  cases written with
  | none => cases found
  | some written =>
    dsimp only at found
    rw [typed, ok_bind] at found
    split at found
    · rename_i admitted
      obtain rfl := Option.some.inj (Except.ok.inj found)
      exact admitted
    · cases found

/-- Null is a value of no type. -/
theorem PrimitiveType.not_admits_null (type : PrimitiveType) : type.admits .null = false := by
  cases type <;> rfl

namespace Column

variable {read : KeywordReader} {required : Option Bool} {column : Column}

/-- A column is stored as JSON, or as its scalar type and format say. -/
theorem storage_of_storageType {type : PrimitiveType} {json : Bool} {format : Option String}
    {columnType : ColumnType} (stored : storageType type json format = .ok columnType)
    (notJson : columnType ≠ .json) :
    type.isScalar = true ∧ ColumnType.ofFormat? type format = some columnType := by
  unfold storageType scalarType at stored
  split at stored
  · exact absurd (Except.ok.inj stored).symm notJson
  · split at stored
    · rename_i isScalar
      refine ⟨isScalar, ?_⟩
      split at stored
      · rename_i found
        rw [found, Except.ok.inj stored]
      · cases stored
      · cases stored
    · cases stored

/-- Where the parts of a column come from. -/
structure ColumnOf (read : KeywordReader) (column : Column) : Prop where
  type : read.primitiveType = .ok column.type
  storage : ∃ json, storageType column.type json column.format = .ok column.columnType
  maxLength : column.maxLength.isSome = true → column.columnType.supportsMaxLength = true
  foreignKey : ∃ text : Option String, read.foreignKey? = .ok text ∧
    text.mapM Extension.foreignKeyTarget = .ok column.foreignKey
  argumentsFound : read.arguments? = .ok column.arguments
  argumentsChecked : column.arguments.forM (Extension.checkArguments .column) = .ok ()
  default : read.default? = .ok column.default

/-- What a column is, read keyword by keyword. -/
structure ReadAs (read : KeywordReader) (required : Option Bool) (column : Column) : Prop where
  type : read.primitiveType = .ok column.type
  storage : ∃ json, read.flag "x-json" = .ok json ∧
    storageType column.type json column.format = .ok column.columnType
  format : read.format? = .ok column.format
  maxLength : read.maxLength? = .ok column.maxLength
  supported : column.maxLength.isSome = true → column.columnType.supportsMaxLength = true
  foreignKey : ∃ text : Option String, read.foreignKey? = .ok text ∧
    text.mapM Extension.foreignKeyTarget = .ok column.foreignKey
  arguments : read.arguments? = .ok column.arguments
  argumentsChecked : column.arguments.forM (Extension.checkArguments .column) = .ok ()
  autoincrement : read.flag "x-autoincrement" = .ok column.autoincrement
  default : read.default? = .ok column.default
  nullable : ∃ stated, read.nullable? = .ok stated ∧ column.nullable =
    decideNullable stated required column.autoincrement column.default.isSome
  primaryKey : read.flag "x-primary-key" = .ok column.primaryKey
  index : read.flag "x-index" = .ok column.index
  unique : read.flag "x-unique" = .ok column.unique
  description : read.description? = .ok column.description
  dictIgnore : read.flag "x-dict-ignore" = .ok column.dictIgnore
  readOnly : read.flag "readOnly" = .ok column.readOnly
  writeOnly : read.flag "writeOnly" = .ok column.writeOnly

theorem ofKeywords_eq_ok : ofKeywords read required = .ok column ↔ ReadAs read required column := by
  constructor
  · intro built
    unfold ofKeywords at built
    obtain ⟨type, typed, built⟩ := bind_eq_ok.mp built
    obtain ⟨json, isJson, built⟩ := bind_eq_ok.mp built
    obtain ⟨format, formatted, built⟩ := bind_eq_ok.mp built
    obtain ⟨columnType, stored, built⟩ := bind_eq_ok.mp built
    obtain ⟨maxLength, sized, built⟩ := bind_eq_ok.mp built
    dsimp only at built
    split at built
    · simp at built
    rename_i supported
    simp only [bind_eq_ok, pure_eq_ok, Except.ok.injEq] at built
    obtain ⟨text, found, foreignKey, pointed, arguments, foundArguments, _, checked, autoincrement,
      increments, default, foundDefault, stated, isStated, primaryKey, isPrimary, index, isIndex,
      unique, isUnique, description, isDescription, dictIgnore, isIgnored, readOnly, isRead,
      writeOnly, isWritten, rfl⟩ := built
    exact ⟨typed, ⟨json, isJson, stored⟩, formatted, sized, by simpa using supported,
      ⟨text, found, pointed⟩, foundArguments, checked, increments, foundDefault,
      ⟨stated, isStated, rfl⟩, isPrimary, isIndex, isUnique, isDescription, isIgnored, isRead,
      isWritten⟩
  · intro reads
    obtain ⟨json, isJson, stored⟩ := reads.storage
    obtain ⟨text, found, pointed⟩ := reads.foreignKey
    obtain ⟨stated, isStated, nullable⟩ := reads.nullable
    have supported : ¬ (column.maxLength.isSome && !column.columnType.supportsMaxLength) = true := by
      simpa using reads.supported
    unfold ofKeywords
    rw [reads.type, ok_bind, isJson, ok_bind, reads.format, ok_bind, stored, ok_bind,
      reads.maxLength, ok_bind, if_neg supported, found]
    simp only [pure_eq_ok, ok_bind, pointed, reads.arguments, reads.argumentsChecked,
      reads.autoincrement, reads.default, isStated, reads.primaryKey, reads.index, reads.unique,
      reads.description, reads.dictIgnore, reads.readOnly, reads.writeOnly, ← nullable]

theorem columnOf_of_ofKeywords (built : ofKeywords read required = .ok column) :
    ColumnOf read column := by
  have reads := ofKeywords_eq_ok.mp built
  obtain ⟨json, -, stored⟩ := reads.storage
  exact ⟨reads.type, ⟨json, stored⟩, reads.supported, reads.foreignKey, reads.arguments,
    reads.argumentsChecked, reads.default⟩

theorem flat_of_ofSchema {schema : Json} (built : ofSchema schema required = .ok column) :
    ∃ fields, schema = .obj fields ∧ schema.isFlat = true ∧
      ofKeywords (KeywordReader.ofFields fields) required = .ok column := by
  unfold ofSchema at built
  split at built
  · split at built
    · rename_i fields isFlat
      exact ⟨fields, rfl, isFlat, built⟩
    · cases built
  · cases built

/-- What holds of every column, wherever it comes from. -/
structure WellFormed (column : Column) : Prop where
  maxLength : column.maxLength.isSome = true →
    column.columnType = .string ∨ column.columnType = .binary
  storage : column.columnType ≠ .json → column.type.isScalar = true ∧
    ColumnType.ofFormat? column.type column.format = some column.columnType
  default : ∀ value, column.default = some value →
    value.isNull = false ∧ column.type.admits value = true
  foreignKey : ∀ text, column.foreignKey = some text → Text.IsColumnPath text
  arguments : ∀ given, column.arguments = some given →
    ∀ key ∈ Keyed.keys given, key ∉ Extension.Level.column.reserved

theorem ColumnOf.wellFormed (columnOf : ColumnOf read column) : column.WellFormed where
  maxLength isSet := by
    have supported := columnOf.maxLength isSet
    cases storage : column.columnType <;> simp_all [ColumnType.supportsMaxLength]
  storage notJson := by
    obtain ⟨json, stored⟩ := columnOf.storage
    exact storage_of_storageType stored notJson
  default value isDefault := by
    have admitted := KeywordReader.admits_of_default? columnOf.type (isDefault ▸ columnOf.default)
    refine ⟨?_, admitted⟩
    cases value with
    | null => rw [PrimitiveType.not_admits_null] at admitted; cases admitted
    | _ => rfl
  foreignKey text points := by
    obtain ⟨written, -, checked⟩ := columnOf.foreignKey
    rw [points] at checked
    obtain ⟨target, -, checked⟩ := optionMapM_eq_some.mp checked
    obtain ⟨isTableColumn, rfl⟩ := Extension.foreignKeyTarget_eq_ok.mp checked
    exact Text.isColumnPath_of_isTableColumn isTableColumn
  arguments given isGiven key member := by
    have checked := columnOf.argumentsChecked
    rw [isGiven] at checked
    exact (Extension.checkArguments_eq_ok.mp checked key member).1

/-- Every column that is made from a schema is well formed. -/
theorem wellFormed_of_ofSchema {schema : Json} (built : ofSchema schema required = .ok column) :
    column.WellFormed := by
  obtain ⟨fields, -, -, built⟩ := flat_of_ofSchema built
  exact (columnOf_of_ofKeywords built).wellFormed

end Column

end EntityMapping
