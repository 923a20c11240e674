import EntityMapping.Proofs.Composing
import EntityMapping.Proofs.Keyed

/-!
Schemas whose references stay within the registry. Where every reference written in a registry
names an entity, so does every reference that its schemas are composed of.
-/

set_option autoImplicit false
set_option relaxedAutoImplicit false

namespace EntityMapping

/-- Whether a reference does not lead into another document: it names an entity, or cannot be
read. -/
def Reference.isLocal (text : String) : Bool :=
  match Reference.parse text with
  | .ok (.remote _ _) => false
  | _ => true

namespace Json

mutual

/-- Whether no reference in a value leads into another document. -/
def refersLocally : Json → Bool
  | .obj fields => fieldsReferLocally fields
  | .arr items => itemsReferLocally items
  | _ => true

def itemsReferLocally : List Json → Bool
  | [] => true
  | item :: rest => refersLocally item && itemsReferLocally rest

def fieldsReferLocally : List (String × Json) → Bool
  | [] => true
  | (key, value) :: rest => fieldRefersLocally key value && fieldsReferLocally rest

/-- A reference is a text under its keyword; every other value is gone through. -/
def fieldRefersLocally (key : String) : Json → Bool
  | .str text => if key = "$ref" then Reference.isLocal text else true
  | .obj fields => fieldsReferLocally fields
  | .arr items => itemsReferLocally items
  | _ => true

end

theorem itemsReferLocally_iff (items : List Json) :
    itemsReferLocally items = true ↔ ∀ item ∈ items, item.refersLocally = true := by
  induction items with
  | nil => simp [itemsReferLocally]
  | cons item rest ih => simp [itemsReferLocally, ih]

theorem fieldsReferLocally_iff (fields : Keyed Json) :
    fieldsReferLocally fields = true ↔
      ∀ field ∈ fields, fieldRefersLocally field.1 field.2 = true := by
  induction fields with
  | nil => simp [fieldsReferLocally]
  | cons field rest ih => simp [fieldsReferLocally, ih]

theorem fieldRefersLocally_arr (key : String) (items : List Json) :
    fieldRefersLocally key (.arr items) = itemsReferLocally items := by
  rw [fieldRefersLocally]

end Json

namespace Composition

mutual

/-- What is written on a schema and on its fragments, however far down. -/
def layers : Composition → List (Keyed Json)
  | .notObject => []
  | .plain own => [own]
  | .reference _ own => [own]
  | .malformed own => [own]
  | .all fragments own => own :: allLayers fragments

def allLayers : List Composition → List (Keyed Json)
  | [] => []
  | fragment :: rest => layers fragment ++ allLayers rest

end

theorem mem_allLayers {own : Keyed Json} {items : List Json} :
    own ∈ allLayers (items.map Json.composition) ↔
      ∃ item ∈ items, own ∈ item.composition.layers := by
  induction items with
  | nil => simp [allLayers]
  | cons item rest ih => simp [allLayers, ih]

theorem mem_layers_self (own : Keyed Json) : own ∈ (Json.obj own).composition.layers := by
  unfold Json.composition
  split
  · simp [layers]
  · split <;> simp [layers]

end Composition

namespace Registry

variable {registry : Registry} {schema item target : Json} {own : Keyed Json} {items : List Json}
  {text next : String} {parsed : Reference}

/-- Every reference that a schema is composed of names an entity of the registry, unless it cannot
be read at all. -/
def ComposedLocally (registry : Registry) (schema : Json) : Prop :=
  ∀ text, registry.ReachesReference schema text →
    ∀ parsed, Reference.parse text = .ok parsed → ∃ name, parsed = .entity name

theorem ComposedLocally.of_composes (references : registry.ComposedLocally schema)
    (parts : registry.Composes schema item) : registry.ComposedLocally item :=
  fun text ⟨own, further, reference⟩ => references text ⟨own, parts.trans further, reference⟩

theorem ComposedLocally.of_fragment (references : registry.ComposedLocally (.obj own))
    (noReference : Keyed.get? own "$ref" = none)
    (written : Keyed.get? own "allOf" = some (.arr items)) (member : item ∈ items) :
    registry.ComposedLocally item := fun text reached =>
  references text (reached.of_fragment noReference written member)

theorem ComposedLocally.of_reference (references : registry.ComposedLocally (.obj own))
    (reference : Keyed.get? own "$ref" = some (.str text))
    (parse : Reference.parse text = .ok parsed)
    (led : registry.target text parsed = .ok (next, target)) : registry.ComposedLocally target :=
  fun other reached => references other (reached.of_reference reference parse led)

theorem target_entity_eq_ok {name : String} :
    registry.target text (.entity name) = .ok (next, target) ↔
      next = name ∧ registry.get? name = some target := by
  cases found : registry.get? name <;> simp [Registry.target, found, eq_comm]

/-- A reference to an entity stays within the registry as the entity does. -/
theorem ComposedLocally.of_target {name : String}
    (reference : Keyed.get? own "$ref" = some (.str text))
    (parse : Reference.parse text = .ok (.entity name))
    (registered : registry.get? name = some target)
    (references : registry.ComposedLocally target) : registry.ComposedLocally (.obj own) := by
  rintro other ⟨part, parts, found⟩ parsed parseOther
  cases parts with
  | self =>
    obtain rfl := Json.str.inj (Option.some.inj (reference.symm.trans found))
    exact ⟨name, Except.ok.inj (parseOther.symm.trans parse)⟩
  | fragment noReference => cases noReference.symm.trans reference
  | reference referenceToo parseToo led parts =>
    obtain rfl := Json.str.inj (Option.some.inj (reference.symm.trans referenceToo))
    obtain rfl := Except.ok.inj (parse.symm.trans parseToo)
    obtain ⟨-, registeredToo⟩ := target_entity_eq_ok.mp led
    obtain rfl := Option.some.inj (registered.symm.trans registeredToo)
    exact references other ⟨part, parts, found⟩ parsed parseOther

/-- The parts of a schema within the registry are written in the schema or in an entity. -/
theorem ComposedLocally.mem_layers (references : registry.ComposedLocally schema)
    (parts : registry.Composes schema (.obj own)) : own ∈ schema.composition.layers ∨
      ∃ entry ∈ registry.entries, own ∈ entry.2.composition.layers := by
  generalize isPart : Json.obj own = part at parts
  induction parts with
  | self schema =>
    subst isPart
    exact .inl (Composition.mem_layers_self own)
  | fragment noReference written member _ ih =>
    refine (ih (references.of_fragment noReference written member) isPart).imp_left fun inItem => ?_
    rw [Json.composition_fragments noReference written, Composition.layers, List.mem_cons]
    exact .inr (Composition.mem_allLayers.mpr ⟨_, member, inItem⟩)
  | reference reference parse led _ ih =>
    obtain ⟨name, rfl⟩ := references _ (.self reference) _ parse
    obtain ⟨-, registered⟩ := target_entity_eq_ok.mp led
    rcases ih (references.of_reference reference parse led) isPart with inTarget | elsewhere
    · exact .inr ⟨_, Keyed.mem_of_get? registered, inTarget⟩
    · exact .inr elsewhere

/-- What holds of all that is written in the schema and in the entities holds of every part. -/
theorem ComposedLocally.of_layers (holds : Keyed Json → Prop)
    (references : registry.ComposedLocally schema) (parts : registry.Composes schema (.obj own))
    (inSchema : ∀ layer ∈ schema.composition.layers, holds layer)
    (inEntries : ∀ entry ∈ registry.entries, ∀ layer ∈ entry.2.composition.layers, holds layer) :
    holds own := by
  rcases references.mem_layers parts with inside | ⟨entry, member, inEntry⟩
  · exact inSchema own inside
  · exact inEntries entry member own inEntry

/-- Every reference written in the schemas of a registry stays within the registry. -/
def RefersLocally (registry : Registry) : Prop :=
  ∀ entry ∈ registry.entries, entry.2.refersLocally = true

instance (registry : Registry) : Decidable registry.RefersLocally :=
  inferInstanceAs (Decidable (∀ entry ∈ registry.entries, entry.2.refersLocally = true))

theorem entity_of_isLocal (isLocal : Reference.isLocal text = true)
    (parse : Reference.parse text = .ok parsed) : ∃ name, parsed = .entity name := by
  cases parsed with
  | entity name => exact ⟨name, rfl⟩
  | remote document pointer => simp [Reference.isLocal, parse] at isLocal

theorem fieldRefersLocally_of_get? {key : String} {value : Json}
    (inSchema : (Json.obj own).refersLocally = true) (found : Keyed.get? own key = some value) :
    Json.fieldRefersLocally key value = true :=
  (Json.fieldsReferLocally_iff own).mp inSchema _ (Keyed.mem_of_get? found)

theorem isLocal_of_get? (inSchema : (Json.obj own).refersLocally = true)
    (reference : Keyed.get? own "$ref" = some (.str text)) : Reference.isLocal text = true := by
  simpa [Json.fieldRefersLocally] using fieldRefersLocally_of_get? inSchema reference

/-- The parts of a schema stay within the registry as the schema does. -/
theorem RefersLocally.of_composes {part : Json} (references : registry.RefersLocally)
    (parts : registry.Composes schema part) (inSchema : schema.refersLocally = true) :
    part.refersLocally = true := by
  induction parts with
  | self => exact inSchema
  | fragment _ written member _ ih =>
    have inItems := fieldRefersLocally_of_get? inSchema written
    rw [Json.fieldRefersLocally_arr, Json.itemsReferLocally_iff] at inItems
    exact ih (inItems _ member)
  | reference reference parse led _ ih =>
    obtain ⟨name, rfl⟩ := entity_of_isLocal (isLocal_of_get? inSchema reference) parse
    obtain ⟨-, registered⟩ := target_entity_eq_ok.mp led
    exact ih (references _ (Keyed.mem_of_get? registered))

theorem RefersLocally.composedLocally (references : registry.RefersLocally)
    (inSchema : schema.refersLocally = true) : registry.ComposedLocally schema := by
  rintro text ⟨part, parts, found⟩ parsed parse
  exact entity_of_isLocal (isLocal_of_get? (references.of_composes parts inSchema) found) parse

end Registry

end EntityMapping
