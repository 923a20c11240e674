import EntityMapping.Proofs.Outcome
import EntityMapping.Relationship.Gathering

/-!
What gathering a relationship comes to where it succeeds. The reference is written on the property,
or on the items of a list; it leads to an entity of type `object`, whose name the relationship has.
What is not written beside the reference is taken from that entity.
-/

set_option autoImplicit false
set_option relaxedAutoImplicit false

namespace EntityMapping

namespace Relationship

variable {relationship : Relationship} {property : String} {referring : Json}
  {collected target : Keyed Json}

/-- What a relationship takes from the keywords collected beside its reference, or else from the
entity that it leads to. Whether the other side is a list counts where one instance is held. -/
structure TakesFrom (relationship : Relationship) (collected target : Keyed Json) : Prop where
  secondary : formed .string "x-secondary" (lookUp collected target "x-secondary") =
    .ok relationship.secondary
  column : ∃ column, formed .string "x-foreign-key-column"
      (lookUp collected target "x-foreign-key-column") = .ok column ∧
    relationship.foreignKeyColumn = column.getD defaultForeignKeyColumn
  backref : formed .string "x-backref" (lookUp collected target "x-backref") =
    .ok (relationship.backref.map Backref.name)
  uselist : relationship.type = .object →
    formed .boolean "x-uselist" (lookUp collected target "x-uselist") =
      .ok (relationship.backref.bind Backref.uselist)

/-- Without the reference nothing is collected. -/
theorem contains_of_collect (found : collect property referring = .ok collected) :
    Keyed.contains collected "$ref" = true := by
  cases referring with
  | obj fields =>
    obtain ⟨items, -, found⟩ := bind_eq_ok.mp found
    obtain ⟨joined, -, found⟩ := bind_eq_ok.mp found
    obtain ⟨_, checked, found⟩ := bind_eq_ok.mp found
    obtain rfl := Except.ok.inj found
    have required := forM_eq_ok_iff.mp checked ⟨"$ref", true, false⟩ (by simp [rules])
    unfold checkRequired at required
    split at required
    · cases required
    · rename_i there
      simpa using there
  | _ => cases found

theorem backrefOf_eq_ok {name : Option String} {uselist : Option Bool} {backref : Option Backref}
    (found : backrefOf property name uselist = .ok backref) :
    backref.map Backref.name = name ∧ backref.bind Backref.uselist = uselist := by
  cases name with
  | some name =>
    obtain rfl := Except.ok.inj found
    exact ⟨rfl, rfl⟩
  | none =>
    cases uselist with
    | some uselist => cases found
    | none =>
      obtain rfl := Except.ok.inj found
      exact ⟨rfl, rfl⟩

end Relationship

namespace Registry

variable {registry : Registry} {property : String} {schema referring : Json}
  {relationship : Relationship} {type : RelationshipType}

/-- What a relationship is gathered from: the keywords collected where the reference is written, the
reference among them, and the entity that it leads to. -/
structure Gathers (registry : Registry) (property : String) (referring : Json)
    (relationship : Relationship) (collected : Keyed Json) (text : String) (flat : FlatSchema) :
    Prop where
  written : Relationship.collect property referring = .ok collected
  reference : Keyed.get? collected "$ref" = some (.str text)
  flattened : registry.flatten property (.obj [("$ref", .str text)]) = .ok flat
  isObject : flat.keywords.primitiveType = .ok .object
  modelName : relationship.modelName = flat.name
  takesFrom : relationship.TakesFrom collected flat.fields

/-- What is gathered is of the type that is wanted, and its arguments are checked. -/
theorem gatherReference_eq_ok
    (gathered : registry.gatherReference type property referring = .ok relationship) :
    relationship.type = type ∧
      relationship.arguments.forM (Extension.checkArguments .relationship) = .ok () ∧
      ∃ collected text flat,
        registry.Gathers property referring relationship collected text flat := by
  unfold gatherReference at gathered
  obtain ⟨collected, isCollected, gathered⟩ := bind_eq_ok.mp gathered
  obtain ⟨reference, formed, gathered⟩ := bind_eq_ok.mp gathered
  obtain ⟨flat, flattened, gathered⟩ := bind_eq_ok.mp gathered
  obtain ⟨primitive, typed, gathered⟩ := bind_eq_ok.mp gathered
  dsimp only at gathered
  split at gathered
  · simp [Relationship.refuse] at gathered
  rename_i isObject
  obtain rfl : primitive = .object := by simpa using isObject
  simp only [bind_eq_ok, pure_eq_ok, Except.ok.injEq] at gathered
  obtain ⟨name, isName, uselist, isUselist, _, secondary, column, isColumn, backref, isBackref,
    arguments, -, _, checked, _, -, _, -, _, -, rfl⟩ := gathered
  obtain ⟨sameName, sameUselist⟩ := Relationship.backrefOf_eq_ok isBackref
  obtain ⟨value, written⟩ :=
    Option.isSome_iff_exists.mp (Relationship.contains_of_collect isCollected)
  rw [written] at formed
  cases value with
  | str text =>
    obtain rfl := Except.ok.inj formed
    exact ⟨rfl, checked, collected, text, flat, isCollected, written, flattened, typed, rfl,
      secondary, ⟨column, isColumn, rfl⟩, sameName ▸ isName, fun _ => sameUselist ▸ isUselist⟩
  | _ => cases formed

/-- Where the reference of a relationship is written: on the property, or on the items of a list. -/
inductive Refers (registry : Registry) (schema : Json) : RelationshipType → Json → Prop
  | object : Refers registry schema .object schema
  | array {items : Json} : (registry.keywords schema).items? = .ok (some items) →
      Refers registry schema .array items

theorem Refers.unique {other : Json} (one : registry.Refers schema type referring)
    (two : registry.Refers schema type other) : referring = other := by
  cases one with
  | object =>
    cases two
    rfl
  | array items =>
    cases two with
    | array others => exact Option.some.inj (Except.ok.inj (items.symm.trans others))

/-- A relationship that is gathered holds one instance and has no association table, or it is a
list; then the list itself may say what it is for, and the other side is not said to be one. -/
theorem gather?_eq_some
    (gathered : registry.gather? property schema = .ok (some relationship)) :
    (registry.gatherReference .object property schema = .ok relationship ∧
      relationship.secondary = none) ∨
    ∃ items found description writeOnly, (registry.keywords schema).items? = .ok (some items) ∧
      registry.gatherReference .array property items = .ok found ∧
      relationship = { found with
        nullable := none
        backref := found.backref.map fun backref => { backref with uselist := none }
        description := description
        writeOnly := writeOnly } := by
  obtain ⟨flat, -, gathered⟩ := bind_eq_ok.mp gathered
  obtain ⟨json, -, gathered⟩ := bind_eq_ok.mp gathered
  split at gathered
  · cases gathered
  obtain ⟨type, -, gathered⟩ := bind_eq_ok.mp gathered
  split at gathered
  · cases gathered
  obtain ⟨readOnly, -, gathered⟩ := bind_eq_ok.mp gathered
  split at gathered
  · cases gathered
  split at gathered
  · obtain ⟨relationship, list, gathered⟩ := bind_eq_ok.mp gathered
    obtain rfl := Option.some.inj (Except.ok.inj gathered)
    obtain ⟨items, foundItems, list⟩ := bind_eq_ok.mp list
    cases items with
    | none => cases list
    | some items =>
      obtain ⟨found, isGathered, list⟩ := bind_eq_ok.mp list
      simp only [bind_eq_ok, pure_eq_ok, Except.ok.injEq] at list
      obtain ⟨_, -, _, -, rfl⟩ := list
      exact .inr ⟨items, found, _, _, foundItems, isGathered, rfl⟩
  · obtain ⟨relationship, object, gathered⟩ := bind_eq_ok.mp gathered
    obtain rfl := Option.some.inj (Except.ok.inj gathered)
    obtain ⟨found, isGathered, object⟩ := bind_eq_ok.mp object
    split at object
    · cases object
    · rename_i noSecondary
      obtain rfl := Except.ok.inj object
      exact .inl ⟨isGathered, noSecondary⟩

/-- Every relationship is gathered from an entity, by the reference where it is written. -/
theorem gathers_of_gather?
    (gathered : registry.gather? property schema = .ok (some relationship)) :
    ∃ referring collected text flat, registry.Refers schema relationship.type referring ∧
      registry.Gathers property referring relationship collected text flat := by
  rcases gather?_eq_some gathered with ⟨isGathered, -⟩ |
    ⟨items, found, _, _, foundItems, isGathered, rfl⟩
  · obtain ⟨type, -, collected, text, flat, gathers⟩ := gatherReference_eq_ok isGathered
    exact ⟨schema, collected, text, flat, type ▸ .object, gathers⟩
  · obtain ⟨type, -, collected, text, flat, gathers⟩ := gatherReference_eq_ok isGathered
    have refers : registry.Refers schema found.type items := type ▸ .array foundItems
    have taken := gathers.takesFrom
    refine ⟨items, collected, text, flat, refers, gathers.written, gathers.reference,
      gathers.flattened, gathers.isObject, gathers.modelName, taken.secondary, taken.column, ?_,
      fun isObject => ?_⟩
    · rw [taken.backref, Option.map_map]
      rfl
    · cases isObject.symm.trans type

end Registry

end EntityMapping
