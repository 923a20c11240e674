import EntityMapping.Proofs.AddedKeys
import EntityMapping.Proofs.Associations

/-!
Key columns and the columns that they reference. A key column is built from the type, the format and
the length that are read off the flattened property that it references, and so it has the storage of
that property's own column. The column of an association table is built in another place and is the
same, but for where it is left out.
-/

set_option autoImplicit false
set_option relaxedAutoImplicit false

namespace EntityMapping

namespace ForeignKey

/-- A key column, given what is read off the column that it references. -/
def keyColumn (type : PrimitiveType) (columnType : ColumnType) (format : Option String)
    (maxLength : Option Nat) (nullable : Option Bool) (pointsAt : String) (ignored : Bool) :
    Column where
  type := type
  columnType := columnType
  format := format
  maxLength := maxLength
  nullable := nullable.getD true
  primaryKey := false
  autoincrement := false
  index := false
  unique := false
  foreignKey := some pointsAt
  default := none
  description := none
  arguments := none
  dictIgnore := ignored
  readOnly := false
  writeOnly := false

/-- A key column stores what the column that it references stores, and has nothing else of it. -/
structure Matches (key original : Column) (pointsAt : String) (nullable : Option Bool) : Prop where
  type : key.type = original.type
  columnType : key.columnType = original.columnType
  format : key.format = original.format
  maxLength : key.maxLength = original.maxLength
  foreignKey : key.foreignKey = some pointsAt
  nullable : key.nullable = nullable.getD true
  primaryKey : key.primaryKey = false
  autoincrement : key.autoincrement = false
  index : key.index = false
  unique : key.unique = false
  default : key.default = none

/-- What is read off a column can be stored in a key column, and the key points at a column. -/
structure Stores (type : PrimitiveType) (columnType : ColumnType) (format : Option String)
    (maxLength : Option Nat) (pointsAt : String) : Prop where
  storage : Column.storageType type false format = .ok columnType
  supported : maxLength.isSome = true → columnType.supportsMaxLength = true
  pointsAt : Extension.foreignKeyTarget pointsAt = .ok pointsAt

/-- A schema says what that of a key column says, and whether it is left out of dictionaries. -/
structure ReadsKey (read : KeywordReader) (type : PrimitiveType) (format : Option String)
    (maxLength : Option Nat) (nullable : Option Bool) (pointsAt : String) (ignored : Bool) :
    Prop where
  type : read.primitiveType = .ok type
  format : read.format? = .ok format
  maxLength : read.maxLength? = .ok maxLength
  nullable : read.nullable? = .ok nullable
  foreignKey : read.foreignKey? = .ok (some pointsAt)
  ignored : read.flag "x-dict-ignore" = .ok ignored
  silent : ∀ keyword ∉ ["type", "format", "maxLength", "nullable", "x-foreign-key",
    "x-dict-ignore"], read keyword = .ok none

end ForeignKey

open ForeignKey (columnSchema keySchema keyColumn Matches Stores ReadsKey Source)

namespace KeywordReader

variable {fields : Keyed Json} {read : KeywordReader} {keyword : String}

/-- A keyword that is written from a value reads as that value. -/
theorem as_of_get? {α : Type} {form : KeywordForm α} {write : α → Json} {value : Option α}
    (written : Keyed.get? fields keyword = value.map write)
    (reads : ∀ value, (write value).isNull = false ∧ form keyword (write value) = .ok value) :
    as (ofFields fields) form keyword = .ok value := by
  cases value with
  | none => simp_all [as, ofFields, presentValue?]
  | some value => simp_all [as, ofFields, presentValue?, Option.filter]

theorem as_of_silent {α : Type} {form : KeywordForm α} (silent : read keyword = .ok none) :
    as read form keyword = .ok none := by
  rw [as, silent]
  rfl

theorem flag_of_silent (silent : read keyword = .ok none) : flag read keyword = .ok false := by
  rw [flag, flag?, as_of_silent silent]
  rfl

end KeywordReader

namespace ForeignKey

variable {type : PrimitiveType} {columnType : ColumnType} {format : Option String}
  {maxLength : Option Nat} {nullable required : Option Bool} {pointsAt : String} {ignored : Bool}
  {fields : Keyed Json} {read : KeywordReader} {key : Column}

open KeywordReader in
/-- A schema that says what that of a key column says is read so. -/
theorem readsKey_of_said
    (said : ∀ keyword, keyword ≠ "x-dict-ignore" → Keyed.get? fields keyword =
      Keyed.get? (columnSchema type.spelling format maxLength nullable pointsAt) keyword)
    (isIgnored : (ofFields fields).flag "x-dict-ignore" = .ok ignored) :
    ReadsKey (ofFields fields) type format maxLength nullable pointsAt ignored := by
  simp only [get?_columnSchema] at said
  have text : ∀ {keyword : String} {text : Option String},
      Keyed.get? fields keyword = text.map .str →
        text? (ofFields fields) keyword = .ok text := fun written =>
    as_of_get? written fun _ => ⟨rfl, rfl⟩
  refine ⟨?_, text (said "format" (by decide)), ?_, ?_, text (said "x-foreign-key" (by decide)),
    isIgnored, fun keyword notSaid => ?_⟩
  · rw [primitiveType, typeText, @text "type" (some type.spelling) (said "type" (by decide))]
    exact PrimitiveType.parse_eq_ok.mpr rfl
  · have written : Keyed.get? fields "maxLength" =
        maxLength.map fun length : Nat => Json.int length := said "maxLength" (by decide)
    exact as_of_get? written fun _ => ⟨rfl, by simp [KeywordForm.natural, Json.nat?]⟩
  · exact as_of_get? (said "nullable" (by decide)) fun _ => ⟨rfl, rfl⟩
  · simp only [List.mem_cons, List.not_mem_nil, or_false, not_or] at notSaid
    obtain ⟨notType, notFormat, notLength, notNullable, notKey, notIgnored⟩ := notSaid
    have absent := said keyword notIgnored
    rw [if_neg notKey, if_neg notNullable, if_neg notLength, if_neg notFormat, if_neg notType]
      at absent
    rw [ofFields, presentValue?, absent]
    rfl

theorem readsKey_columnSchema : ReadsKey (KeywordReader.ofFields
    (columnSchema type.spelling format maxLength nullable pointsAt)) type format maxLength nullable
      pointsAt false := by
  refine readsKey_of_said (fun _ _ => rfl) (KeywordReader.flag_of_silent ?_)
  rw [KeywordReader.ofFields, presentValue?, get?_columnSchema]
  rfl

theorem readsKey_keySchema : ReadsKey (KeywordReader.ofFields
    (keySchema type format maxLength nullable pointsAt)) type format maxLength nullable
      pointsAt true := by
  refine readsKey_of_said (fun keyword different => Keyed.get?_set_of_ne _ _ different) ?_
  have written : Keyed.get? (keySchema type format maxLength nullable pointsAt) "x-dict-ignore" =
      (some true).map .bool := Keyed.get?_set_self _ _ _
  have isTrue : (KeywordReader.ofFields (keySchema type format maxLength nullable pointsAt)).flag?
      "x-dict-ignore" = .ok (some true) := KeywordReader.as_of_get? written fun _ => ⟨rfl, rfl⟩
  rw [KeywordReader.flag, isTrue]
  rfl

/-- The column that the schema of a key column makes. -/
theorem ReadsKey.readAs_keyColumn
    (reads : ReadsKey read type format maxLength nullable pointsAt ignored)
    (stores : Stores type columnType format maxLength pointsAt) :
    Column.ReadAs read none
      (keyColumn type columnType format maxLength nullable pointsAt ignored) := by
  have silent : ∀ {keyword}, keyword ∉ ["type", "format", "maxLength", "nullable",
      "x-foreign-key", "x-dict-ignore"] → read.flag keyword = .ok false := fun notSaid =>
    KeywordReader.flag_of_silent (reads.silent _ notSaid)
  have noDefault : read.default? = .ok none := by
    rw [KeywordReader.default?, reads.silent "default" (by decide)]
    rfl
  exact
    { type := reads.type
      storage := ⟨false, silent (by decide), stores.storage⟩
      format := reads.format
      maxLength := reads.maxLength
      supported := stores.supported
      foreignKey := ⟨some pointsAt, reads.foreignKey, by simp [stores.pointsAt, keyColumn]⟩
      arguments := KeywordReader.as_of_silent (reads.silent "x-kwargs" (by decide))
      argumentsChecked := rfl
      autoincrement := silent (by decide)
      default := noDefault
      nullable := ⟨nullable, reads.nullable, by cases nullable <;> rfl⟩
      primaryKey := silent (by decide)
      index := silent (by decide)
      unique := silent (by decide)
      description := KeywordReader.as_of_silent (reads.silent "description" (by decide))
      dictIgnore := reads.ignored
      readOnly := silent (by decide)
      writeOnly := silent (by decide) }

theorem ReadsKey.stores (reads : ReadsKey read type format maxLength nullable pointsAt ignored)
    (made : Column.ReadAs read required key) :
    Stores type key.columnType format maxLength pointsAt := by
  obtain ⟨json, isJson, stored⟩ := made.storage
  have notJson : json = false := Except.ok.inj (isJson.symm.trans
    (KeywordReader.flag_of_silent (reads.silent "x-json" (by decide))))
  have sameType : key.type = type := Except.ok.inj (made.type.symm.trans reads.type)
  have sameFormat : key.format = format := Except.ok.inj (made.format.symm.trans reads.format)
  have sameLength : key.maxLength = maxLength :=
    Except.ok.inj (made.maxLength.symm.trans reads.maxLength)
  obtain ⟨text, found, pointed⟩ := made.foreignKey
  obtain rfl := Except.ok.inj (reads.foreignKey.symm.trans found)
  rw [Option.mapM_some] at pointed
  obtain ⟨target, points, -⟩ := map_eq_ok.mp pointed
  obtain ⟨-, rfl⟩ := Extension.foreignKeyTarget_eq_ok.mp points
  exact ⟨by rw [← sameType, ← sameFormat, ← notJson]; exact stored,
    sameLength ▸ made.supported, points⟩

/-- Which column the schema of a key column makes. -/
theorem ReadsKey.ofKeywords_eq_ok
    (reads : ReadsKey read type format maxLength nullable pointsAt ignored) :
    Column.ofKeywords read none = .ok key ↔
      Stores type key.columnType format maxLength pointsAt ∧
        key = keyColumn type key.columnType format maxLength nullable pointsAt ignored := by
  constructor
  · intro made
    have stores := reads.stores (Column.ofKeywords_eq_ok.mp made)
    have madeToo := Column.ofKeywords_eq_ok.mpr (reads.readAs_keyColumn stores)
    exact ⟨stores, Except.ok.inj (made.symm.trans madeToo)⟩
  · rintro ⟨stores, isKey⟩
    rw [isKey]
    exact Column.ofKeywords_eq_ok.mpr (reads.readAs_keyColumn stores)

/-- The schemas of key columns are flat, and are read keyword by keyword. -/
theorem ofSchema_obj_eq (noReference : Keyed.get? fields "$ref" = none)
    (noFragments : Keyed.get? fields "allOf" = none) (required : Option Bool) :
    Column.ofSchema (.obj fields) required =
      Column.ofKeywords (KeywordReader.ofFields fields) required := by
  have isFlat : (Json.obj fields).isFlat = true := by
    simp [Json.isFlat, Keyed.contains, noReference, noFragments]
  rw [Column.ofSchema, if_pos isFlat]

theorem ofSchema_keySchema_eq_ok :
    Column.ofSchema (.obj (keySchema type format maxLength nullable pointsAt)) none = .ok key ↔
      Stores type key.columnType format maxLength pointsAt ∧
        key = keyColumn type key.columnType format maxLength nullable pointsAt true := by
  have isKey := isKeySchema_keySchema type format maxLength nullable pointsAt
  rw [ofSchema_obj_eq isKey.noReference isKey.noFragments]
  exact readsKey_keySchema.ofKeywords_eq_ok

theorem ofSchema_columnSchema_eq_ok :
    Column.ofSchema (.obj (columnSchema type.spelling format maxLength nullable pointsAt)) none =
        .ok key ↔
      Stores type key.columnType format maxLength pointsAt ∧
        key = keyColumn type key.columnType format maxLength nullable pointsAt false := by
  rw [ofSchema_obj_eq (get?_columnSchema ..) (get?_columnSchema ..)]
  exact readsKey_columnSchema.ofKeywords_eq_ok

/-- A column that is not stored as JSON is read so. -/
theorem storage_of_readAs (made : Column.ReadAs read required key)
    (notJson : read.json? ≠ .ok (some true)) :
    Column.storageType key.type false key.format = .ok key.columnType := by
  obtain ⟨json, isJson, stored⟩ := made.storage
  obtain ⟨flag, isFlag, isJson⟩ := bind_eq_ok.mp isJson
  obtain rfl := Except.ok.inj isJson
  have notTrue : flag ≠ some true := fun isTrue => notJson (isTrue ▸ isFlag)
  have isFalse : flag.getD false = false := by
    rcases flag with - | - | - <;> simp_all
  rwa [isFalse] at stored

theorem isScalar_of_storageType (stored : Column.storageType type false format = .ok columnType) :
    type.isScalar = true := by
  by_contra notScalar
  simp [Column.storageType, notScalar] at stored

/-- A key column whose storage follows from the format of a column matches the column. -/
theorem Stores.matches_keyColumn {original : Column}
    (stores : Stores original.type columnType original.format original.maxLength pointsAt)
    (stored : Column.storageType original.type false original.format = .ok original.columnType) :
    Matches (keyColumn original.type columnType original.format original.maxLength nullable pointsAt
      ignored) original pointsAt nullable where
  type := rfl
  columnType := Except.ok.inj (stores.storage.symm.trans stored)
  format := rfl
  maxLength := rfl
  foreignKey := rfl
  nullable := rfl
  primaryKey := rfl
  autoincrement := rfl
  index := rfl
  unique := rfl
  default := rfl

end ForeignKey

namespace Registry

variable {registry : Registry} {owning column tablename target property secondary : String}
  {schema : Json} {owner referenced : FlatSchema} {nullable required : Option Bool}
  {original key : Column} {side : AssociationColumn}

/-- Which key is missing, given what is read off the column that it references. -/
theorem foreignKey_missing_iff
    (source : registry.keySource owning column = .ok ⟨tablename, referenced, original.type⟩)
    (made : Column.ReadAs referenced.keywords required original) :
    registry.foreignKey target owning column nullable = .ok (.missing property schema key) ↔
      property = ForeignKey.propertyName tablename column ∧
        schema = .obj (keySchema original.type original.format original.maxLength nullable
          (ForeignKey.target tablename column)) ∧
        (∃ own, (registry.registered target >>= registry.ownSchema target) = .ok own ∧
          registry.flatProperty? own.fields property = .ok none) ∧
        Stores original.type key.columnType original.format original.maxLength
          (ForeignKey.target tablename column) ∧
        key = keyColumn original.type key.columnType original.format original.maxLength nullable
          (ForeignKey.target tablename column) true := by
  rw [foreignKey_eq_missing, ← ForeignKey.ofSchema_keySchema_eq_ok]
  constructor
  · rintro ⟨own, sourceToo, ownFound, sourceFound, isProperty, absent, missing⟩
    obtain rfl := Except.ok.inj (source.symm.trans sourceFound)
    obtain ⟨format, maxLength, keyToo, formatted, sized, built, same⟩ := missingKey_iff.mp missing
    obtain rfl := Except.ok.inj (made.format.symm.trans formatted)
    obtain rfl := Except.ok.inj (made.maxLength.symm.trans sized)
    obtain ⟨-, rfl, rfl⟩ := ForeignKey.Requirement.missing.inj same
    exact ⟨isProperty.symm, rfl, ⟨own, ownFound, absent⟩, built⟩
  · rintro ⟨rfl, rfl, ⟨own, ownFound, absent⟩, built⟩
    exact ⟨own, _, ownFound, source, rfl, absent, missingKey_iff.mpr
      ⟨original.format, original.maxLength, key, made.format, made.maxLength, built, rfl⟩⟩

/-- The column of an association table for an entity whose primary key is a column. -/
theorem associationSide_eq_keyColumn (entry : registry.get? owning = some schema)
    (flattened : registry.flatten owning schema = .ok owner)
    (named : owner.keywords.tablename? = .ok (some tablename))
    (referencedFound : registry.flatProperty? owner.fields column = .ok (some referenced))
    (isPrimaryKey : referenced.keywords.primaryKey? = .ok (some true))
    (made : Column.ReadAs referenced.keywords required original)
    (found : registry.associationSide secondary owning = .ok side) :
    side.name = ForeignKey.propertyName tablename column ∧
      Stores original.type side.column.columnType original.format original.maxLength
        (ForeignKey.target tablename column) ∧
      side.column = keyColumn original.type side.column.columnType original.format
        original.maxLength none (ForeignKey.target tablename column) false := by
  obtain ⟨_, flat, tablenameToo, property, primary, entryToo, flattenedToo, namedToo, keys, built⟩ :=
    associationSide_eq_ok.mp found
  obtain rfl := Option.some.inj (entry.symm.trans entryToo)
  obtain rfl := Except.ok.inj (flattened.symm.trans flattenedToo)
  obtain rfl := Option.some.inj (Except.ok.inj (named.symm.trans namedToo))
  -- the column is among the primary keys, of which there is one
  obtain ⟨-, -, members⟩ := primaryKeysOf_eq_ok keys
  obtain ⟨declared, isDeclared, isReferenced⟩ := flatProperty?_eq_some.mp referencedFound
  have inProperties : (column, declared) ∈ propertiesIn owner.fields := by
    obtain ⟨properties, written, inside⟩ := Option.bind_eq_some_iff.mp isDeclared
    obtain ⟨fields, isFields, listed⟩ := Option.bind_eq_some_iff.mp inside
    rw [propertiesIn, written, Option.bind_some, isFields]
    exact Keyed.mem_of_get? listed
  have isOnly : (column, referenced) ∈ [(property, primary)] :=
    (members column referenced).mpr ⟨declared, inProperties, isReferenced, isPrimaryKey⟩
  obtain ⟨rfl, rfl⟩ := Prod.mk.inj (List.mem_singleton.mp isOnly)
  obtain ⟨text, typed, parsed⟩ := bind_eq_ok.mp made.type
  obtain rfl := PrimitiveType.parse_eq_ok.mp parsed
  obtain ⟨_, _, _, columnMade, typedToo, formatted, sized, isColumn, rfl⟩ :=
    associationColumn_eq_ok.mp built
  obtain rfl := Except.ok.inj (typed.symm.trans typedToo)
  obtain rfl := Except.ok.inj (made.format.symm.trans formatted)
  obtain rfl := Except.ok.inj (made.maxLength.symm.trans sized)
  exact ⟨rfl, ForeignKey.ofSchema_columnSchema_eq_ok.mp isColumn⟩

/-- A key column matches the column that it references: a key column that is missing, whether it may
be null or not, and the column of an association table that references the primary key of one of its
sides. The latter is the key column without anything said about null, but is not left out of
dictionaries. -/
theorem keyColumns_match (entry : registry.get? owning = some schema)
    (flattened : registry.flatten owning schema = .ok owner)
    (named : owner.keywords.tablename? = .ok (some tablename))
    (referencedFound : registry.flatProperty? owner.fields column = .ok (some referenced))
    (notJson : referenced.keywords.json? ≠ .ok (some true))
    (compiled : Column.ofSchema (.obj referenced.fields) required = .ok original) :
    (∀ target nullable property keySchema key,
      registry.foreignKey target owning column nullable = .ok (.missing property keySchema key) →
        property = ForeignKey.propertyName tablename column ∧
          Matches key original (ForeignKey.target tablename column) nullable) ∧
    (referenced.keywords.primaryKey? = .ok (some true) →
      ∀ secondary left right table side,
        registry.association secondary left right = .ok table →
        (left = owning ∧ side = table.first ∨ right = owning ∧ side = table.second) →
          side.name = ForeignKey.propertyName tablename column ∧
          Matches side.column original (ForeignKey.target tablename column) none ∧
          ∀ target nullable property keySchema key,
            registry.foreignKey target owning column nullable =
                .ok (.missing property keySchema key) →
              ∃ plainSchema plain,
                registry.foreignKey target owning column none =
                    .ok (.missing property plainSchema plain) ∧
                  side = ⟨property, { plain with dictIgnore := false }⟩) := by
  obtain ⟨_, same, -, read⟩ := Column.flat_of_ofSchema compiled
  obtain rfl := Json.obj.inj same
  have made : Column.ReadAs referenced.keywords required original :=
    Column.ofKeywords_eq_ok.mp read
  have stored := ForeignKey.storage_of_readAs made notJson
  have source : registry.keySource owning column = .ok ⟨tablename, referenced, original.type⟩ :=
    keySource_eq_ok.mpr ⟨schema, owner, entry, flattened, named, referencedFound, made.type,
      ForeignKey.isScalar_of_storageType stored⟩
  constructor
  · intro target nullable property keySchema key required
    obtain ⟨isProperty, -, -, stores, isKey⟩ := (foreignKey_missing_iff source made).mp required
    rw [isKey]
    exact ⟨isProperty, stores.matches_keyColumn stored⟩
  · intro isPrimaryKey secondary left right table side joined isSide
    have found : registry.associationSide secondary owning = .ok side := by
      obtain ⟨first, second, foundFirst, foundSecond, -, rfl⟩ := association_eq_ok.mp joined
      rcases isSide with ⟨rfl, rfl⟩ | ⟨rfl, rfl⟩
      · exact foundFirst
      · exact foundSecond
    obtain ⟨isName, stores, isColumn⟩ := associationSide_eq_keyColumn entry flattened named
      referencedFound isPrimaryKey made found
    refine ⟨isName, ?_, fun target nullable property keySchema key required => ?_⟩
    · rw [isColumn]
      exact stores.matches_keyColumn stored
    · obtain ⟨isProperty, -, missing, -⟩ := (foreignKey_missing_iff source made).mp required
      refine ⟨_, keyColumn original.type side.column.columnType original.format original.maxLength
        none (ForeignKey.target tablename column) true, (foreignKey_missing_iff source made).mpr
          ⟨isProperty, rfl, missing, stores, rfl⟩, ?_⟩
      rw [isProperty, ← isName]
      exact congrArg (AssociationColumn.mk side.name) isColumn

/-- Countries have a code as primary key. -/
def country : Keyed Json :=
  [("type", .str "object"), ("x-tablename", .str "country"),
    ("properties", .obj [("code", .obj [("allOf", .arr [.obj [("$ref", .str "#/Code")],
      .obj [("x-primary-key", .bool true), ("default", .str "EU")]])])])]

/-- The code of countries once it is flattened. -/
def countryCode : Keyed Json :=
  [("type", .str "string"), ("maxLength", .int 2), ("x-primary-key", .bool true),
    ("default", .str "EU")]

/-- Codes have two letters. -/
def atlas : Registry where
  entries := [
    ("Code", .obj [("type", .str "string"), ("maxLength", .int 2)]),
    ("Country", .obj country),
    ("City", .obj [("type", .str "object"), ("x-tablename", .str "city"),
      ("properties", .obj [("id", .obj [("type", .str "integer"),
        ("x-primary-key", .bool true)])])])]
  place := none
  documents := Documents.empty

/-- Cities need a key of two letters for the country that they lie in, and so does the table of
cities and the countries that they have a sister city in. -/
theorem keyColumns_match_atlas : ∃ original key keySchema plain plainSchema table,
    atlas.foreignKey "City" "Country" "code" (some false) =
      .ok (.missing "country_code" keySchema key) ∧
    Matches key original "country.code" (some false) ∧
    original.primaryKey = true ∧ original.default = some (.str "EU") ∧
    original.maxLength = some 2 ∧
    atlas.association "sister" "City" "Country" = .ok table ∧
    atlas.foreignKey "City" "Country" "code" none =
      .ok (.missing "country_code" plainSchema plain) ∧
    table.second = ⟨"country_code", { plain with dictIgnore := false }⟩ ∧
    Matches table.second.column original "country.code" none := by
  have flattened : atlas.flatten "Country" (.obj country) = .ok ⟨"Country", country⟩ := by cbv
  have referenced : atlas.flatProperty? country "code" = .ok (some ⟨"code", countryCode⟩) := by
    cbv
  have notJson : (FlatSchema.keywords ⟨"code", countryCode⟩).json? = .ok none := by cbv
  have compiled : Column.ofSchema (.obj countryCode) none =
      .ok { keyColumn .string .string none (some 2) (some false) "country.code" false with
        primaryKey := true, foreignKey := none, default := some (.str "EU") } := by cbv
  have required : atlas.foreignKey "City" "Country" "code" (some false) =
      .ok (.missing "country_code"
        (.obj (keySchema .string none (some 2) (some false) "country.code"))
        (keyColumn .string .string none (some 2) (some false) "country.code" true)) := by cbv
  have joined : atlas.association "sister" "City" "Country" = .ok ⟨"sister",
      ⟨"city_id", keyColumn .integer .integer none none none "city.id" false⟩,
      ⟨"country_code", keyColumn .string .string none (some 2) none "country.code" false⟩⟩ := by
    cbv
  obtain ⟨missing, sides⟩ :=
    keyColumns_match rfl flattened rfl referenced (by simp [notJson]) compiled
  obtain ⟨isProperty, matchesOriginal⟩ := missing _ _ _ _ _ required
  obtain ⟨-, sideMatches, same⟩ := sides rfl _ _ _ _ _ joined (.inr ⟨rfl, rfl⟩)
  obtain ⟨plainSchema, plain, missingPlain, isSide⟩ := same _ _ _ _ _ required
  exact ⟨_, _, _, plain, plainSchema, _, required, matchesOriginal, rfl, rfl, rfl, joined,
    missingPlain, isSide, sideMatches⟩

end Registry

end EntityMapping
