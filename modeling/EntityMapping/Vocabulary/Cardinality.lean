/-!
The cardinalities of relationships.
-/

set_option autoImplicit false
set_option relaxedAutoImplicit false

namespace EntityMapping

/-- How many instances stand on either side of a relationship. -/
inductive Cardinality where
  /-- An object property whose back reference is not a list. -/
  | oneToOne
  /-- A list property without an association table. -/
  | oneToMany
  /-- Any other object property. -/
  | manyToOne
  /-- A list property through an association table. -/
  | manyToMany (secondary : String)
  deriving DecidableEq, Repr

namespace Cardinality

/-- The name that people read. -/
def displayName : Cardinality → String
  | .oneToOne => "One to One"
  | .oneToMany => "One to Many"
  | .manyToOne => "Many to One"
  | .manyToMany _ => "Many to Many"

/-- Whether the relationship goes through an association table. -/
def needsAssociationTable : Cardinality → Bool
  | .manyToMany _ => true
  | _ => false

/-- Whether the entity that declares the property holds the foreign key. A one to many
relationship puts it on the referenced entity, a many to many relationship on its association
table. -/
def keyIsLocal : Cardinality → Bool
  | .manyToOne => true
  | .oneToOne => true
  | _ => false

end Cardinality

end EntityMapping
