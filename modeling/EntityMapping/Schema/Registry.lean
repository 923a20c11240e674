import EntityMapping.Documents

/-!
The registry: entity schemas under the names of the entities, in the order of their declaration,
with the place of the document they come from and the documents that references may lead to.
-/

set_option autoImplicit false
set_option relaxedAutoImplicit false

namespace EntityMapping

/-- The entity schemas of a compilation. References into other documents are taken from the
directory of `place`. -/
structure Registry where
  entries : Keyed Json
  place : Option String
  documents : Documents

namespace Registry

/-- No entities. -/
def empty (documents : Documents) : Registry := ⟨[], none, documents⟩

/-- The registry of an object of entity schemas. -/
def ofValue (documents : Documents) : Json → Except SchemaError Registry
  | .obj entries => .ok ⟨entries, none, documents⟩
  | other => .error (.malformedSchema (.schemasNotObject other))

/-- The registry of a whole document, which keeps its entity schemas under its components. -/
def ofDocument (documents : Documents) (document : Json) : Except SchemaError Registry :=
  match (document.get? "components").bind (·.get? "schemas") with
  | some schemas => ofValue documents schemas
  | none => .error (.notFound .noSchemas)

/-- The registry of the document at a path, which becomes its place. -/
def load (documents : Documents) (path : String) : Except SchemaError Registry := do
  let document ← (documents.tree.document path).mapError SchemaError.notFound
  let registry ← ofDocument documents (.obj document)
  return { registry with place := some path }

def get? (registry : Registry) (name : String) : Option Json := Keyed.get? registry.entries name

def contains (registry : Registry) (name : String) : Bool := Keyed.contains registry.entries name

/-- The entity names in order. -/
def names (registry : Registry) : List String := Keyed.keys registry.entries

/-- Set the schema of an entity, which may be new. -/
def insert (registry : Registry) (name : String) (schema : Json) : Registry :=
  { registry with entries := Keyed.set registry.entries name schema }

/-- Set the schema of an entity that is registered. -/
def replace (registry : Registry) (name : String) (schema : Json) : Except SchemaError Registry :=
  if registry.contains name then .ok (registry.insert name schema)
  else .error (.notFound (.unregistered name))

end Registry

end EntityMapping
