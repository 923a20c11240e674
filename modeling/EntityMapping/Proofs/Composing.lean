import EntityMapping.Proofs.Outcome
import EntityMapping.Schema.Inheritance

/-!
How schemas are composed, seen on their keywords. Every schema is no object, a reference, a list
of fragments, or stands for itself; proofs about composed schemas follow these cases, with one
equation for flattening in each. The parts of a schema are what flattening it goes through.
-/

set_option autoImplicit false
set_option relaxedAutoImplicit false

namespace EntityMapping

namespace Json

variable {own : Keyed Json}

theorem composition_reference {target : Json} (reference : Keyed.get? own "$ref" = some target) :
    composition (.obj own) = .reference target own := by
  simp [composition, reference]

theorem composition_plain (noReference : Keyed.get? own "$ref" = none)
    (noFragments : Keyed.get? own "allOf" = none) : composition (.obj own) = .plain own := by
  simp [composition, noReference, fragmentsIn_eq, noFragments]

theorem composition_malformed (noReference : Keyed.get? own "$ref" = none) {value : Json}
    (written : Keyed.get? own "allOf" = some value) (noList : value.items? = none) :
    composition (.obj own) = .malformed own := by
  cases value <;> simp_all [composition, fragmentsIn_eq, fragmentsOf, items?]

theorem composition_fragments (noReference : Keyed.get? own "$ref" = none) {items : List Json}
    (written : Keyed.get? own "allOf" = some (.arr items)) :
    composition (.obj own) = .all (items.map composition) own := by
  simp [composition, noReference, fragmentsIn_eq, written, fragmentsOf, compositions_eq_map]

theorem composition_notObject {schema : Json} (notObject : schema.fields? = none) :
    composition schema = .notObject := by
  cases schema <;> simp_all [composition, fields?]

theorem sizeOf_item_lt {items : List Json} {item : Json}
    (written : Keyed.get? own "allOf" = some (.arr items)) (member : item ∈ items) :
    sizeOf item < sizeOf (Json.obj own) := by
  have inItems := List.sizeOf_lt_of_mem member
  have inFields : ∀ fields : Keyed Json, Keyed.get? fields "allOf" = some (.arr items) →
      sizeOf (Json.arr items) < sizeOf fields := by
    intro fields found
    induction fields with
    | nil => simp at found
    | cons pair rest ih =>
      obtain ⟨key, value⟩ := pair
      by_cases same : key = "allOf"
      · have equal : value = .arr items := by simpa [Keyed.get?, same] using found
        subst equal
        simp
        omega
      · have later := ih (by simpa [Keyed.get?, same] using found)
        simp at later ⊢
        omega
  have listed := inFields own written
  simp at listed ⊢
  omega

/-- Proofs about a schema follow how it is composed; what is asked of its fragments may be used. -/
@[elab_as_elim]
theorem byComposition {motive : Json → Prop}
    (notObject : ∀ schema, schema.fields? = none → motive schema)
    (plain : ∀ own, Keyed.get? own "$ref" = none → Keyed.get? own "allOf" = none →
      motive (.obj own))
    (reference : ∀ own target, Keyed.get? own "$ref" = some target → motive (.obj own))
    (malformed : ∀ own value, Keyed.get? own "$ref" = none → Keyed.get? own "allOf" = some value →
      value.items? = none → motive (.obj own))
    (fragments : ∀ own items, Keyed.get? own "$ref" = none →
      Keyed.get? own "allOf" = some (.arr items) → (∀ item ∈ items, motive item) →
      motive (.obj own))
    (schema : Json) : motive schema := by
  induction size : sizeOf schema using Nat.strongRecOn generalizing schema with
  | ind n ih =>
    cases fields : schema.fields? with
    | none => exact notObject schema fields
    | some own =>
      obtain rfl : schema = .obj own := by cases schema <;> simp_all [fields?]
      cases ref : Keyed.get? own "$ref" with
      | some target => exact reference own target ref
      | none =>
        cases all : Keyed.get? own "allOf" with
        | none => exact plain own ref all
        | some value =>
          cases listed : value.items? with
          | none => exact malformed own value ref all listed
          | some items =>
            obtain rfl : value = .arr items := by cases value <;> simp_all [items?]
            refine fragments own items ref all fun item member => ?_
            exact ih (sizeOf item) (size ▸ sizeOf_item_lt all member) item rfl

/-- Proofs about a schema after whose references some more may be followed use what holds where
fewer may be followed, whatever the schema, and for the fragments of this one. -/
@[elab_as_elim]
theorem byFollowing {motive : Nat → Json → Prop}
    (notObject : ∀ hops schema, schema.fields? = none → motive hops schema)
    (plain : ∀ hops own, Keyed.get? own "$ref" = none → Keyed.get? own "allOf" = none →
      motive hops (.obj own))
    (reference : ∀ hops own target, Keyed.get? own "$ref" = some target →
      (∀ fewer < hops, ∀ {schema}, motive fewer schema) → motive hops (.obj own))
    (malformed : ∀ hops own value, Keyed.get? own "$ref" = none →
      Keyed.get? own "allOf" = some value → value.items? = none → motive hops (.obj own))
    (fragments : ∀ hops own items, Keyed.get? own "$ref" = none →
      Keyed.get? own "allOf" = some (.arr items) → (∀ item ∈ items, motive hops item) →
      motive hops (.obj own))
    (hops : Nat) (schema : Json) : motive hops schema := by
  induction hops using Nat.strongRecOn generalizing schema with
  | ind hops shorter =>
  induction schema using byComposition with
  | notObject schema isNoObject => exact notObject hops schema isNoObject
  | plain own noReference noFragments => exact plain hops own noReference noFragments
  | reference own target written =>
    exact reference hops own target written fun fewer less {schema} => shorter fewer less schema
  | malformed own value noReference written noList =>
    exact malformed hops own value noReference written noList
  | fragments own items noReference written each =>
    exact fragments hops own items noReference written each

end Json

theorem Composition.mem_allReferences {text : String} {items : List Json} :
    text ∈ allReferences (items.map Json.composition) ↔
      ∃ item ∈ items, text ∈ item.composition.references := by
  induction items with
  | nil => simp [allReferences]
  | cons item rest ih => simp [allReferences, ih]

namespace Reference

/-- The reference that a target says. -/
def read (target : Json) : Except SchemaError Reference := referenceText target >>= parse

theorem read_text (text : String) : read (.str text) = parse text := rfl

theorem read_eq_ok {target : Json} {parsed : Reference} :
    read target = .ok parsed ↔ ∃ text, target = .str text ∧ parse text = .ok parsed := by
  cases target <;> simp [read, referenceText]

end Reference

namespace Registry

variable (registry : Registry) (skip : Option String)

/-- What flattening does with a reference. -/
def flattenTarget (hops : Nat) (visited : List String) (name : String) (target : Json) :
    Except SchemaError FlatSchema := do
  match ← registry.step skip visited target with
  | none => return ⟨name, []⟩
  | some (reference, arrival) =>
      match hops with
      | 0 => .error (.notFound (.endless reference))
      | hops + 1 => registry.flattenFrom skip hops arrival.visited arrival.name arrival.schema

theorem flattenFrom_eq (hops : Nat) (visited : List String) (name : String) (schema : Json) :
    registry.flattenFrom skip hops visited name schema =
      schema.composition.flattenWith (registry.flattenTarget skip hops visited name) name := by
  unfold flattenFrom
  rfl

variable {registry skip} {hops : Nat} {visited : List String} {name : String}

/-- How a reference is followed: it leads to a target that is not on the chain, which is on it
then. -/
theorem arrive_eq_ok {text : String} {parsed : Reference} {arrival : Arrival} :
    registry.arrive visited text parsed = .ok arrival ↔
      parsed.key ∉ visited ∧ registry.target text parsed = .ok (arrival.name, arrival.schema) ∧
        arrival.visited = visited ++ [parsed.key] := by
  unfold arrive
  by_cases met : parsed.key ∈ visited
  · simp [met]
  · simp only [List.contains_iff_mem, met, if_false, bind_eq_ok, pure_eq_ok, Except.ok.injEq,
      not_false_eq_true, true_and]
    constructor
    · rintro ⟨found, led, rfl⟩
      exact ⟨led, rfl⟩
    · rintro ⟨led, visited⟩
      exact ⟨_, led, by rw [← visited]⟩

/-- Where a reference leads that is followed. -/
theorem step_eq_some {target : Json} {text : String} {arrival : Arrival}
    (stepped : registry.step skip visited target = .ok (some (text, arrival))) :
    target = .str text ∧ ∃ parsed, Reference.parse text = .ok parsed ∧
      skip ≠ some parsed.name ∧ registry.arrive visited text parsed = .ok arrival := by
  obtain ⟨reference, isText, stepped⟩ := bind_eq_ok.mp stepped
  obtain ⟨parsed, parse, stepped⟩ := bind_eq_ok.mp stepped
  split at stepped
  · cases stepped
  · rename_i notSkipped
    obtain ⟨found, arrived, same⟩ := bind_eq_ok.mp stepped
    obtain ⟨rfl, rfl⟩ := Prod.mk.inj (Option.some.inj (Except.ok.inj same))
    refine ⟨?_, parsed, parse, notSkipped, arrived⟩
    cases target with
    | str written => rw [Except.ok.inj isText]
    | _ => cases isText

theorem step_eq_none {target : Json} (stepped : registry.step skip visited target = .ok none) :
    ∃ text parsed, target = .str text ∧ Reference.parse text = .ok parsed ∧
      skip = some parsed.name := by
  obtain ⟨text, isText, stepped⟩ := bind_eq_ok.mp stepped
  obtain ⟨parsed, parse, stepped⟩ := bind_eq_ok.mp stepped
  split at stepped
  · rename_i skipping
    refine ⟨text, parsed, ?_, parse, skipping⟩
    cases target with
    | str written => rw [Except.ok.inj isText]
    | _ => cases isText
  · obtain ⟨_, -, same⟩ := bind_eq_ok.mp stepped
    cases same

/-- A reference that is a text is read, and followed unless its entity is skipped or its target is
on the chain. -/
theorem flattenTarget_text (text : String) :
    registry.flattenTarget skip hops visited name (.str text) =
      Reference.parse text >>= fun parsed =>
        if skip = some parsed.name then .ok ⟨name, []⟩
        else if visited.contains parsed.key then
          .error (.malformedSchema (.circular (visited ++ [parsed.key])))
        else registry.target text parsed >>= fun found =>
          match hops with
          | 0 => .error (.notFound (.endless text))
          | hops + 1 =>
              registry.flattenFrom skip hops (visited ++ [parsed.key]) found.1 found.2 := by
  cases parse : Reference.parse text with
  | error e => simp [flattenTarget, step, referenceText, parse]
  | ok parsed =>
    by_cases skipping : skip = some parsed.name
    · simp [flattenTarget, step, referenceText, parse, skipping]
    · by_cases met : visited.contains parsed.key = true
      · simp only [flattenTarget, step, referenceText, parse, skipping, arrive, met, ok_bind,
          if_true, if_false, error_bind]
      · simp only [flattenTarget, step, referenceText, parse, skipping, arrive, met, ok_bind,
          if_false]
        cases registry.target text parsed with
        | error e => simp
        | ok found => cases hops <;> simp

theorem flattenTarget_of_not_text {target : Json} (noText : target.string? = none) :
    registry.flattenTarget skip hops visited name target =
      .error (.malformedSchema .referenceNotString) := by
  cases target <;> simp_all [flattenTarget, step, referenceText, Json.string?]

/-- A reference that cannot be read is not followed, whatever the registry. -/
theorem flattenTarget_of_unread {target : Json} {e : SchemaError}
    (unread : Reference.read target = .error e) :
    registry.flattenTarget skip hops visited name target = .error e := by
  unfold Reference.read at unread
  cases isText : referenceText target with
  | error noText =>
    rw [isText, error_bind, Except.error.injEq] at unread
    simp [flattenTarget, step, isText, unread]
  | ok text =>
    rw [isText, ok_bind] at unread
    simp [flattenTarget, step, isText, unread]

theorem flattenFrom_notObject {schema : Json} (notObject : schema.fields? = none) :
    registry.flattenFrom skip hops visited name schema =
      .error (.malformedSchema (.namedNotObject name)) := by
  rw [flattenFrom_eq, Json.composition_notObject notObject]
  rfl

variable {own : Keyed Json}

theorem flattenFrom_plain (noReference : Keyed.get? own "$ref" = none)
    (noFragments : Keyed.get? own "allOf" = none) :
    registry.flattenFrom skip hops visited name (.obj own) = .ok ⟨name, own⟩ := by
  rw [flattenFrom_eq, Json.composition_plain noReference noFragments]
  rfl

theorem flattenFrom_reference {target : Json} (reference : Keyed.get? own "$ref" = some target) :
    registry.flattenFrom skip hops visited name (.obj own) =
      registry.flattenTarget skip hops visited name target := by
  rw [flattenFrom_eq, Json.composition_reference reference]
  rfl

theorem flattenFrom_malformed (noReference : Keyed.get? own "$ref" = none) {value : Json}
    (written : Keyed.get? own "allOf" = some value) (noList : value.items? = none) :
    registry.flattenFrom skip hops visited name (.obj own) =
      .error (.malformedSchema .allOfNotList) := by
  rw [flattenFrom_eq, Json.composition_malformed noReference written noList]
  rfl

theorem flattenAllWith_map (follow : Json → Except SchemaError FlatSchema) (items : List Json) :
    Composition.flattenAllWith follow name (items.map Json.composition) =
      items.mapM fun item => (item.composition.flattenWith follow name).map FlatSchema.fields := by
  induction items with
  | nil => rfl
  | cons item rest ih =>
    simp only [List.map_cons, Composition.flattenAllWith, List.mapM_cons, ih]
    cases item.composition.flattenWith follow name <;> rfl

/-- Fragments are flattened one by one, and merged with the keywords beside them. -/
theorem flattenFrom_fragments (noReference : Keyed.get? own "$ref" = none) {items : List Json}
    (written : Keyed.get? own "allOf" = some (.arr items)) :
    registry.flattenFrom skip hops visited name (.obj own) =
      (items.mapM fun item =>
        (registry.flattenFrom skip hops visited name item).map FlatSchema.fields) >>= fun flats =>
        .ok ⟨name, mergeFragments (flats ++ [Keyed.without own "allOf"])⟩ := by
  rw [flattenFrom_eq, Json.composition_fragments noReference written]
  simp only [Composition.flattenWith, flattenAllWith_map, flattenFrom_eq]
  rfl

theorem flattenFrom_fragments_eq_ok (noReference : Keyed.get? own "$ref" = none)
    {items : List Json} (written : Keyed.get? own "allOf" = some (.arr items))
    {found : FlatSchema} :
    registry.flattenFrom skip hops visited name (.obj own) = .ok found ↔
      ∃ flats, List.Forall₂ (fun item flat => ∃ inner,
          registry.flattenFrom skip hops visited name item = .ok inner ∧ inner.fields = flat)
        items flats ∧
        ⟨name, mergeFragments (flats ++ [Keyed.without own "allOf"])⟩ = found := by
  rw [flattenFrom_fragments noReference written, bind_eq_ok]
  simp only [mapM_eq_ok_iff, map_eq_ok, Except.ok.injEq]

/-- Flattening fragments fails as one of them does. -/
theorem exists_fragment_of_flattenFrom_eq_error (noReference : Keyed.get? own "$ref" = none)
    {items : List Json} (written : Keyed.get? own "allOf" = some (.arr items)) {e : SchemaError}
    (failed : registry.flattenFrom skip hops visited name (.obj own) = .error e) :
    ∃ item ∈ items, registry.flattenFrom skip hops visited name item = .error e := by
  rw [flattenFrom_fragments noReference written] at failed
  cases each : items.mapM fun item =>
      (registry.flattenFrom skip hops visited name item).map FlatSchema.fields with
  | ok flats => simp [each] at failed
  | error other =>
    rw [each, error_bind, Except.error.injEq] at failed
    obtain ⟨item, member, one⟩ := exists_of_mapM_eq_error each
    refine ⟨item, member, ?_⟩
    cases flattened : registry.flattenFrom skip hops visited name item <;>
      simp_all [Except.map]

section Effective

variable {keyword : String} {own : Keyed Json}

/-- What looking up a keyword does with a reference. -/
def effectiveTarget (registry : Registry) (skip : Option String) (keyword : String) (hops : Nat)
    (visited : List String) (target : Json) : Except SchemaError (Option Json) := do
  match ← registry.step skip visited target with
  | none => return none
  | some (reference, arrival) =>
      match hops with
      | 0 => .error (.notFound (.endless reference))
      | hops + 1 => registry.effectiveFrom skip keyword hops arrival.visited arrival.schema

theorem effectiveFrom_eq (schema : Json) :
    registry.effectiveFrom skip keyword hops visited schema =
      schema.composition.effectiveWith (registry.effectiveTarget skip keyword hops visited)
        keyword := by
  unfold effectiveFrom
  rfl

theorem effectiveFrom_notObject {schema : Json} (notObject : schema.fields? = none) :
    registry.effectiveFrom skip keyword hops visited schema =
      .error (.malformedSchema .notObject) := by
  rw [effectiveFrom_eq, Json.composition_notObject notObject]
  rfl

theorem effectiveFrom_plain (noReference : Keyed.get? own "$ref" = none)
    (noFragments : Keyed.get? own "allOf" = none) :
    registry.effectiveFrom skip keyword hops visited (.obj own) =
      .ok (presentValue? own keyword) := by
  rw [effectiveFrom_eq, Json.composition_plain noReference noFragments]
  rfl

theorem effectiveFrom_reference {target : Json} (reference : Keyed.get? own "$ref" = some target) :
    registry.effectiveFrom skip keyword hops visited (.obj own) =
      match presentValue? own keyword with
      | some value => .ok (some value)
      | none => registry.effectiveTarget skip keyword hops visited target := by
  rw [effectiveFrom_eq, Json.composition_reference reference]
  rfl

theorem effectiveFrom_malformed (noReference : Keyed.get? own "$ref" = none) {value : Json}
    (written : Keyed.get? own "allOf" = some value) (noList : value.items? = none) :
    registry.effectiveFrom skip keyword hops visited (.obj own) =
      match presentValue? own keyword with
      | some value => .ok (some value)
      | none => .error (.malformedSchema .allOfNotList) := by
  rw [effectiveFrom_eq, Json.composition_malformed noReference written noList]
  rfl

theorem firstEffectiveWith_map (follow : Json → Except SchemaError (Option Json))
    (items : List Json) :
    Composition.firstEffectiveWith follow keyword (items.map Json.composition) =
      items.findSomeM? fun item => item.composition.effectiveWith follow keyword := by
  induction items with
  | nil => rfl
  | cons item rest ih =>
    simp only [List.map_cons, Composition.firstEffectiveWith, List.findSomeM?_cons, ih]
    exact bind_congr fun value => by cases value <;> rfl

/-- A keyword beside fragments comes first, then the fragments in their order. -/
theorem effectiveFrom_fragments (noReference : Keyed.get? own "$ref" = none) {items : List Json}
    (written : Keyed.get? own "allOf" = some (.arr items)) :
    registry.effectiveFrom skip keyword hops visited (.obj own) =
      match presentValue? own keyword with
      | some value => .ok (some value)
      | none => items.findSomeM? (registry.effectiveFrom skip keyword hops visited) := by
  have each : registry.effectiveFrom skip keyword hops visited = fun item =>
      item.composition.effectiveWith (registry.effectiveTarget skip keyword hops visited) keyword :=
    funext fun item => effectiveFrom_eq item
  rw [effectiveFrom_eq, each, Json.composition_fragments noReference written,
    Composition.effectiveWith]
  cases presentValue? own keyword with
  | some value => rfl
  | none => exact firstEffectiveWith_map _ items

end Effective

theorem ownSchema_eq_ok {schema : Json} {ownFound : OwnSchema} :
    registry.ownSchema name schema = .ok ownFound ↔
      registry.parent? name schema = .ok ownFound.parent ∧
        ∃ flat, registry.flattenWithout ownFound.parent name schema = .ok flat ∧
          flat.fields = ownFound.fields := by
  simp only [ownSchema, bind_eq_ok, pure_eq_ok, Except.ok.injEq]
  constructor
  · rintro ⟨parent, parentFound, flat, flattened, rfl⟩
    exact ⟨parentFound, flat, flattened, rfl⟩
  · rintro ⟨parentFound, flat, flattened, same⟩
    exact ⟨_, parentFound, flat, flattened, by rw [same]⟩

/-- Where a reference into a document leads: along its pointer to a value, which is relocated. -/
theorem target_remote_eq_ok {text document next : String} {pointer : List String}
    {schema : Json} : registry.target text (.remote document pointer) = .ok (next, schema) ↔
      ∃ place root inner, registry.place = some place ∧
        registry.documents.find (documentPath place document) = .ok root ∧
        descend text document pointer (.obj root) = .ok inner ∧
        pointer.getLast?.getD "" = next ∧ Reference.relocate document inner = schema := by
  cases placed : registry.place with
  | none => simp [target, placed]
  | some place =>
    cases found : registry.documents.find (documentPath place document) with
    | error cause => simp [target, placed, found, Except.mapError]
    | ok root =>
      cases descended : descend text document pointer (.obj root) <;>
        simp [target, placed, found, Except.mapError, descended]

/-- The parts that a schema is composed of: itself, its fragments, and what its references lead
to, however far down. What is written beside a reference does not count. -/
inductive Composes (registry : Registry) : Json → Json → Prop
  | self (schema : Json) : Composes registry schema schema
  | fragment {own : Keyed Json} {items : List Json} {item part : Json} :
      Keyed.get? own "$ref" = none → Keyed.get? own "allOf" = some (.arr items) → item ∈ items →
      Composes registry item part → Composes registry (.obj own) part
  | reference {own : Keyed Json} {text name : String} {parsed : Reference} {target part : Json} :
      Keyed.get? own "$ref" = some (.str text) → Reference.parse text = .ok parsed →
      registry.target text parsed = .ok (name, target) → Composes registry target part →
      Composes registry (.obj own) part

theorem Composes.trans {schema middle part : Json} (first : registry.Composes schema middle)
    (second : registry.Composes middle part) : registry.Composes schema part := by
  induction first with
  | self => exact second
  | fragment noReference written member _ ih =>
    exact .fragment noReference written member (ih second)
  | reference reference parse led _ ih => exact .reference reference parse led (ih second)

/-- A reference text is reached by composing a schema. -/
def ReachesReference (registry : Registry) (schema : Json) (text : String) : Prop :=
  ∃ own, registry.Composes schema (.obj own) ∧ Keyed.get? own "$ref" = some (.str text)

theorem ReachesReference.of_fragment {items : List Json} {item : Json} {text : String}
    (noReference : Keyed.get? own "$ref" = none)
    (written : Keyed.get? own "allOf" = some (.arr items)) (member : item ∈ items)
    (reached : registry.ReachesReference item text) :
    registry.ReachesReference (.obj own) text := by
  obtain ⟨part, parts, found⟩ := reached
  exact ⟨part, .fragment noReference written member parts, found⟩

theorem ReachesReference.of_reference {text name other : String} {parsed : Reference}
    {target : Json} (reference : Keyed.get? own "$ref" = some (.str text))
    (parse : Reference.parse text = .ok parsed)
    (led : registry.target text parsed = .ok (name, target))
    (reached : registry.ReachesReference target other) :
    registry.ReachesReference (.obj own) other := by
  obtain ⟨part, parts, found⟩ := reached
  exact ⟨part, .reference reference parse led parts, found⟩

theorem ReachesReference.self {text : String}
    (reference : Keyed.get? own "$ref" = some (.str text)) :
    registry.ReachesReference (.obj own) text :=
  ⟨own, .self _, reference⟩

theorem ReachesReference.trans {schema target : Json} {parsed : Reference}
    {text next other : String}
    (reached : registry.ReachesReference schema text) (parse : Reference.parse text = .ok parsed)
    (led : registry.target text parsed = .ok (next, target))
    (later : registry.ReachesReference target other) : registry.ReachesReference schema other := by
  obtain ⟨own, parts, written⟩ := reached
  obtain ⟨last, further, writtenToo⟩ := later
  exact ⟨last, parts.trans (.reference written parse led further), writtenToo⟩

/-- The references that a schema is composed of at once are reached. -/
theorem reachesReference_of_mem {schema : Json} {text : String}
    (member : text ∈ schema.composition.references) :
    registry.ReachesReference schema text := by
  induction schema using Json.byComposition with
  | notObject schema notObject =>
    simp [Json.composition_notObject notObject, Composition.references] at member
  | plain own noReference noFragments =>
    simp [Json.composition_plain noReference noFragments, Composition.references] at member
  | reference own target reference =>
    rw [Json.composition_reference reference] at member
    cases target with
    | str target =>
      obtain rfl := List.mem_singleton.mp member
      exact .self reference
    | _ => cases member
  | malformed own value noReference written noList =>
    simp [Json.composition_malformed noReference written noList, Composition.references] at member
  | fragments own items noReference written ih =>
    rw [Json.composition_fragments noReference written] at member
    obtain ⟨item, inItems, inItem⟩ := Composition.mem_allReferences.mp member
    exact .of_fragment noReference written inItems (ih item inItems inItem)

/-- What a schema flattens to is told by what its references lead to. -/
theorem flattenFrom_congr {other : Registry} {schema : Json}
    (same : ∀ text parsed, registry.ReachesReference schema text →
      Reference.parse text = .ok parsed →
      other.target text parsed = registry.target text parsed) :
    other.flattenFrom skip hops visited name schema =
      registry.flattenFrom skip hops visited name schema := by
  induction hops, schema using Json.byFollowing generalizing visited name with
  | notObject hops schema notObject =>
    rw [flattenFrom_notObject notObject, flattenFrom_notObject notObject]
  | plain hops own noReference noFragments =>
    rw [flattenFrom_plain noReference noFragments, flattenFrom_plain noReference noFragments]
  | reference hops own target reference shorter =>
    rw [flattenFrom_reference reference, flattenFrom_reference reference]
    cases read : Reference.read target with
    | error e => rw [flattenTarget_of_unread read, flattenTarget_of_unread read]
    | ok parsed =>
      obtain ⟨text, rfl, parse⟩ := Reference.read_eq_ok.mp read
      rw [flattenTarget_text, flattenTarget_text, parse, ok_bind, ok_bind,
        same text parsed (.self reference) parse]
      cases led : registry.target text parsed with
      | error e => rfl
      | ok found =>
        cases hops with
        | zero => rfl
        | succ fewer =>
          have inTarget : ∀ later next, registry.ReachesReference found.2 later →
              Reference.parse later = .ok next →
              other.target later next = registry.target later next :=
            fun later next reached => same later next (reached.of_reference reference parse led)
          simp only [ok_bind, shorter fewer (Nat.lt_succ_self _) inTarget]
  | malformed hops own value noReference written noList =>
    rw [flattenFrom_malformed noReference written noList,
      flattenFrom_malformed noReference written noList]
  | fragments hops own items noReference written ih =>
    rw [flattenFrom_fragments noReference written, flattenFrom_fragments noReference written]
    have each : ∀ item ∈ items,
        (other.flattenFrom skip hops visited name item).map FlatSchema.fields =
          (registry.flattenFrom skip hops visited name item).map FlatSchema.fields := by
      intro item member
      rw [ih item member fun text parsed reached =>
        same text parsed (reached.of_fragment noReference written member)]
    rw [mapM_congr each]

end Registry

end EntityMapping
