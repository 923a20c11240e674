import EntityMapping.Extension.Arguments
import EntityMapping.Relationship.Basic
import EntityMapping.Schema.Effective

/-!
Gathering relationships from properties. The keywords of a relationship are written beside its
reference, as fragments of the property, in any order but each once at most. Some of them may be
left to the entity that is referenced.
-/

set_option autoImplicit false
set_option relaxedAutoImplicit false

namespace EntityMapping

namespace Relationship

/-- A keyword of relationships. -/
structure KeywordRule where
  keyword : String
  required : Bool
  /-- Whether the referenced entity may say it, too. -/
  inherited : Bool

/-- The keywords of relationships. -/
def rules : List KeywordRule :=
  [⟨"$ref", true, false⟩,
    ⟨"x-backref", false, true⟩,
    ⟨"x-uselist", false, true⟩,
    ⟨"x-secondary", false, true⟩,
    ⟨"x-foreign-key-column", false, true⟩,
    ⟨"nullable", false, false⟩,
    ⟨"description", false, false⟩,
    ⟨"writeOnly", false, false⟩,
    ⟨"x-kwargs", false, false⟩]

def refuse {α : Type} (cause : MalformedRelationshipCause) : Except SchemaError α :=
  .error (.malformedRelationship cause)

/-- The fragments of a property: itself, or those it lists followed by itself. -/
def fragments (property : String) (fields : Keyed Json) : Except SchemaError (List Json) :=
  match Keyed.get? fields "$ref", Keyed.get? fields "allOf" with
  | some _, none => .ok [.obj fields]
  | none, some (.arr fragments) => .ok (fragments ++ [.obj fields])
  | none, some _ => refuse (.allOfNotList property)
  | _, _ => refuse (.notReferenceOrAllOf property)

/-- Collect one keyword of a fragment; no keyword may be there twice. -/
def collectKeyword (property : String) (fragment collected : Keyed Json) (rule : KeywordRule) :
    Except SchemaError (Keyed Json) :=
  match presentValue? fragment rule.keyword with
  | none => .ok collected
  | some value =>
      if Keyed.contains collected rule.keyword then
        refuse (.repeatedKeyword property rule.keyword)
      else .ok (Keyed.set collected rule.keyword value)

/-- Collect the keywords of a fragment, which must be an object. -/
def collectFragment (property : String) (collected : Keyed Json) :
    Json → Except SchemaError (Keyed Json)
  | .obj fragment => rules.foldlM (collectKeyword property fragment) collected
  | _ => refuse (.fragmentNotObject property)

/-- Check that a required keyword is there. -/
def checkRequired (property : String) (collected : Keyed Json) (rule : KeywordRule) :
    Except SchemaError Unit :=
  if rule.required && !Keyed.contains collected rule.keyword then
    refuse (.missingKeyword property rule.keyword)
  else .ok ()

/-- The keywords of a relationship property. -/
def collect (property : String) : Json → Except SchemaError (Keyed Json)
  | .obj fields => do
      let collected ← (← fragments property fields).foldlM (collectFragment property) []
      rules.forM (checkRequired property collected)
      return collected
  | _ => refuse (.notObject property)

/-- The value of a keyword on the property, or else on the entity if that may say it. -/
def lookUp (collected target : Keyed Json) (keyword : String) : Option Json :=
  match Keyed.get? collected keyword with
  | some value => some value
  | none =>
      if rules.any fun rule => rule.keyword = keyword && rule.inherited then
        presentValue? target keyword
      else none

/-- The value of a keyword in its form, if it is there. -/
def formed {α : Type} (form : KeywordForm α) (keyword : String) (value : Option Json) :
    Except SchemaError (Option α) :=
  value.mapM (form keyword)

/-- The back reference; whether it is a list may be said only if it has a name. -/
def backrefOf (property : String) : (name : Option String) → (uselist : Option Bool) →
    Except SchemaError (Option Backref)
  | some name, uselist => .ok (some ⟨name, uselist⟩)
  | none, some _ => refuse (.uselistWithoutBackref property)
  | none, none => .ok none

end Relationship

namespace Registry

/-- The relationship of a property that refers to an entity. -/
def gatherReference (registry : Registry) (type : RelationshipType) (property : String)
    (schema : Json) : Except SchemaError Relationship := do
  let collected ← Relationship.collect property schema
  let reference ← Relationship.formed .string "$ref" (Keyed.get? collected "$ref")
  let target ← registry.flatten property (.obj [("$ref", .str (reference.getD ""))])
  if (← target.keywords.primitiveType) ≠ .object then
    Relationship.refuse (.targetNotObject property target.name)
  let found (keyword : String) : Option Json :=
    Relationship.lookUp collected target.fields keyword
  let backrefName ← Relationship.formed .string "x-backref" (found "x-backref")
  let uselist ← Relationship.formed .boolean "x-uselist" (found "x-uselist")
  let secondary ← Relationship.formed .string "x-secondary" (found "x-secondary")
  let column ←
    Relationship.formed .string "x-foreign-key-column" (found "x-foreign-key-column")
  let backref ← Relationship.backrefOf property backrefName uselist
  let arguments ← Relationship.formed .object "x-kwargs" (Keyed.get? collected "x-kwargs")
  arguments.forM (Extension.checkArguments .relationship)
  let nullable ← Relationship.formed .boolean "nullable" (Keyed.get? collected "nullable")
  let description ←
    Relationship.formed .string "description" (Keyed.get? collected "description")
  let writeOnly ← Relationship.formed .boolean "writeOnly" (Keyed.get? collected "writeOnly")
  return {
    type := type
    modelName := target.name
    foreignKeyColumn := column.getD Relationship.defaultForeignKeyColumn
    nullable := nullable
    description := description
    writeOnly := writeOnly
    backref := backref
    secondary := secondary
    arguments := arguments }

/-- The relationship of a property that holds one instance; it has no association table. -/
def gatherObject (registry : Registry) (property : String) (schema : Json) :
    Except SchemaError Relationship := do
  let relationship ← registry.gatherReference .object property schema
  match relationship.secondary with
  | some secondary => Relationship.refuse (.secondaryOnObject property secondary)
  | none => return relationship

/-- The relationship of a property that holds a list. Its items say what is referenced; what the
list itself says about its description and its use counts over what the items say. -/
def gatherList (registry : Registry) (property : String) (schema : Json) :
    Except SchemaError Relationship := do
  let read := registry.keywords schema
  match ← read.items? with
  | none => Relationship.refuse (.noItems property)
  | some items =>
      let relationship ← registry.gatherReference .array property items
      let description ← read.description?
      let writeOnly ← read.writeOnly?
      return { relationship with
        nullable := none
        backref := relationship.backref.map fun backref => { backref with uselist := none }
        description := description.or relationship.description
        writeOnly := writeOnly.or relationship.writeOnly }

/-- The relationship of a property, if it is one. Scalars, values stored as JSON and properties
that can only be read are none. -/
def gather? (registry : Registry) (property : String) (schema : Json) :
    Except SchemaError (Option Relationship) := do
  let flat ← registry.flatten property schema
  if (← flat.keywords.json?) = some true then return none
  let type ← flat.keywords.primitiveType
  if type.isScalar then return none
  if (← flat.keywords.readOnly?) = some true then return none
  if type = .array then return some (← registry.gatherList property schema)
  else return some (← registry.gatherObject property schema)

end Registry

end EntityMapping
