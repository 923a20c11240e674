import EntityMapping.Proofs.EffectiveKeywords
import EntityMapping.Proofs.LocalRelationships
import Mathlib.Data.List.Lex

/-!
The search for the parent of an entity. The entities that a schema is composed of have addresses,
in the order in which they are come to depth first and from left to right. Where a schema flattens,
no search fails on the way: no entity is met again behind itself, and the table of every entity can
be looked up. So a schema that inherits has a parent exactly if it is composed of an entity that
qualifies, and the parent is the one with the first address.
-/

set_option autoImplicit false
set_option relaxedAutoImplicit false

namespace EntityMapping

/-- The name of the parent that is asked for, if one is. -/
def Inherits.parentName? : Inherits → Option String
  | .enabled _ => none
  | .parent name => some name

/-- What is wrong with an entity that inherits from nothing that it is composed of. -/
def Inherits.missing (name : String) : Inherits → MalformedSchemaCause
  | .enabled _ => .noParent name
  | .parent wanted => .parentNotReferenced name wanted

/-- Where an entity stands in a schema: which fragment is entered at each list of fragments on the
way, counted from 0, and 0 for each reference that is followed. -/
abbrev Address := List Nat

/-- An address comes before another one if it begins it, or turns to the left of it. -/
def Address.Precedes (address other : Address) : Prop := List.Lex (· < ·) address other

theorem Address.Precedes.not_precedes {address other : Address} (earlier : address.Precedes other) :
    ¬ other.Precedes address :=
  asymm_of (List.Lex (· < ·)) earlier

namespace Registry

/-- The entity at an address of a schema, with the names of the entities that are entered on the
way, the last of which is its own. -/
inductive EntityAt (registry : Registry) : Json → Address → List String → Prop
  | here {own : Keyed Json} {text name : String} {target : Json} :
      Keyed.get? own "$ref" = some (.str text) → Reference.parse text = .ok (.entity name) →
      registry.get? name = some target → EntityAt registry (.obj own) [0] [name]
  | inside {own : Keyed Json} {text name : String} {target : Json} {address : Address}
      {way : List String} :
      Keyed.get? own "$ref" = some (.str text) → Reference.parse text = .ok (.entity name) →
      registry.get? name = some target → EntityAt registry target address way →
      EntityAt registry (.obj own) (0 :: address) (name :: way)
  | fragment {own : Keyed Json} {items : List Json} {index : Nat} {item : Json}
      {address : Address} {way : List String} :
      Keyed.get? own "$ref" = none → Keyed.get? own "allOf" = some (.arr items) →
      items[index]? = some item → EntityAt registry item address way →
      EntityAt registry (.obj own) (index :: address) way

/-- Whether an entity can be the parent: it has the name that is asked for, or if none is, an
effective table. -/
def Qualifies (registry : Registry) (wanted : Option String) (name : String) : Prop :=
  match wanted with
  | some parent => name = parent
  | none => ∃ schema tablename, registry.get? name = some schema ∧
      (registry.keywords schema).tablename? = .ok (some tablename)

/-- The first entity of a schema that qualifies, behind others that do not. -/
structure IsFirst (registry : Registry) (qualifies : String → Prop) (schema : Json)
    (address : Address) (before : List String) (parent : String) : Prop where
  here : registry.EntityAt schema address (before ++ [parent])
  qualified : qualifies parent
  clear : ∀ name ∈ before, ¬ qualifies name
  first : ∀ other way name, registry.EntityAt schema other (way ++ [name]) → qualifies name →
    other = address ∨ address.Precedes other

/-- What a search has to find: the first entity that qualifies, or nothing where none does. -/
def Finds (registry : Registry) (qualifies : String → Prop) (schema : Json) :
    Option String → Prop
  | some parent => ∃ address before, registry.IsFirst qualifies schema address before parent
  | none => ∀ address way name, registry.EntityAt schema address (way ++ [name]) →
      ¬ qualifies name

/-- Every table that is named on a part of a schema is named by a text. -/
def TablesHaveNames (registry : Registry) (schema : Json) : Prop :=
  ∀ own, registry.Composes schema (.obj own) →
    (presentValue? own "x-tablename").all Json.isString = true

/-- Every table that is named in a registry is named by a text. -/
def TablesNamed (registry : Registry) : Prop :=
  ∀ entry ∈ registry.entries, ∀ layer ∈ entry.2.composition.layers,
    (presentValue? layer "x-tablename").all Json.isString = true

instance (registry : Registry) : Decidable registry.TablesNamed :=
  inferInstanceAs (Decidable (∀ entry ∈ registry.entries, ∀ layer ∈ entry.2.composition.layers,
    (presentValue? layer "x-tablename").all Json.isString = true))

variable {registry : Registry} {qualifies : String → Prop} {wanted : Option String} {hops : Nat}
  {visited before way : List String} {name parent text : String} {schema target item : Json}
  {own : Keyed Json} {items : List Json} {address other : Address} {found : FlatSchema}

section Addresses

theorem EntityAt.address_ne_nil (stands : registry.EntityAt schema address way) :
    address ≠ [] := by
  cases stands <;> exact List.cons_ne_nil _ _

theorem EntityAt.way_ne_nil (stands : registry.EntityAt schema address way) : way ≠ [] := by
  induction stands with
  | here => exact List.cons_ne_nil _ _
  | inside => exact List.cons_ne_nil _ _
  | fragment _ _ _ _ ih => exact ih

/-- Behind a reference stands its entity, and then what this is composed of. -/
theorem EntityAt.at_reference (stands : registry.EntityAt (.obj own) address way)
    (reference : Keyed.get? own "$ref" = some (.str text))
    (parse : Reference.parse text = .ok (.entity name))
    (registered : registry.get? name = some target) :
    (address = [0] ∧ way = [name]) ∨
      ∃ inner names, address = 0 :: inner ∧ way = name :: names ∧
        registry.EntityAt target inner names := by
  cases stands with
  | here referenceToo parseToo =>
    obtain rfl := Json.str.inj (Option.some.inj (reference.symm.trans referenceToo))
    obtain rfl := Reference.entity.inj (Except.ok.inj (parse.symm.trans parseToo))
    exact .inl ⟨rfl, rfl⟩
  | inside referenceToo parseToo registeredToo inside =>
    obtain rfl := Json.str.inj (Option.some.inj (reference.symm.trans referenceToo))
    obtain rfl := Reference.entity.inj (Except.ok.inj (parse.symm.trans parseToo))
    obtain rfl := Option.some.inj (registered.symm.trans registeredToo)
    exact .inr ⟨_, _, rfl, rfl, inside⟩
  | fragment noReference => cases noReference.symm.trans reference

/-- In a list of fragments an entity stands in one of them. -/
theorem EntityAt.in_fragment (stands : registry.EntityAt (.obj own) address way)
    (noReference : Keyed.get? own "$ref" = none)
    (written : Keyed.get? own "allOf" = some (.arr items)) :
    ∃ index item inner, address = index :: inner ∧ items[index]? = some item ∧
      registry.EntityAt item inner way := by
  cases stands with
  | here reference => cases noReference.symm.trans reference
  | inside reference => cases noReference.symm.trans reference
  | fragment _ writtenToo placed inner =>
    obtain rfl := Json.arr.inj (Option.some.inj (written.symm.trans writtenToo))
    exact ⟨_, _, _, rfl, placed, inner⟩

/-- There is one entity at an address, and one way to it. -/
theorem EntityAt.unique {others : List String} (stands : registry.EntityAt schema address way)
    (standsToo : registry.EntityAt schema address others) : way = others := by
  induction stands generalizing others with
  | here reference parse registered =>
    rcases standsToo.at_reference reference parse registered with
      ⟨-, rfl⟩ | ⟨inner, names, same, -, inside⟩
    · rfl
    · exact absurd (List.cons.inj same).2.symm inside.address_ne_nil
  | inside reference parse registered inside ih =>
    rcases standsToo.at_reference reference parse registered with
      ⟨same, -⟩ | ⟨inner, names, same, rfl, insideToo⟩
    · exact absurd (List.cons.inj same).2 inside.address_ne_nil
    · obtain ⟨-, rfl⟩ := List.cons.inj same
      rw [ih insideToo]
  | fragment noReference written placed _ ih =>
    obtain ⟨index, item, inner, same, placedToo, inItem⟩ :=
      standsToo.in_fragment noReference written
    obtain ⟨rfl, rfl⟩ := List.cons.inj same
    obtain rfl := Option.some.inj (placed.symm.trans placedToo)
    exact ih inItem

/-- A schema is composed of the entities on the way to an address. -/
theorem EntityAt.reachesEntity (stands : registry.EntityAt schema address way)
    (member : name ∈ way) : registry.ReachesEntity schema name := by
  induction stands with
  | here reference parse =>
    rw [List.mem_singleton.mp member]
    exact .self reference parse
  | inside reference parse registered _ ih =>
    rcases List.mem_cons.mp member with rfl | later
    · exact .self reference parse
    · exact (ih later).of_reference reference parse (target_entity_eq_ok.mpr ⟨rfl, registered⟩)
  | fragment noReference written placed _ ih =>
    exact (ih member).of_fragment noReference written (List.mem_of_getElem? placed)

/-- Without cycles, no entity is entered twice on the way to an address. -/
theorem EntityAt.nodup (stands : registry.EntityAt schema address way)
    (acyclic : ¬ registry.ReachesCycle schema) : way.Nodup := by
  induction stands with
  | here => exact List.nodup_singleton _
  | @inside own text name target address way reference parse registered inner ih =>
    have led : registry.target text (.entity name) = .ok (name, target) :=
      target_entity_eq_ok.mpr ⟨rfl, registered⟩
    refine List.nodup_cons.mpr ⟨fun again => acyclic ?_, ih fun ⟨met, reached, cyclic⟩ =>
      acyclic ⟨met, reached.of_reference reference parse led, cyclic⟩⟩
    exact ⟨name, .self reference parse, target, registered, inner.reachesEntity again⟩
  | fragment noReference written placed _ ih =>
    exact ih fun ⟨met, reached, cyclic⟩ =>
      acyclic ⟨met, reached.of_fragment noReference written (List.mem_of_getElem? placed), cyclic⟩

theorem not_entityAt_of_plain (noReference : Keyed.get? own "$ref" = none)
    (noFragments : Keyed.get? own "allOf" = none) :
    ¬ registry.EntityAt (.obj own) address way := by
  intro stands
  cases stands with
  | here reference => cases noReference.symm.trans reference
  | inside reference => cases noReference.symm.trans reference
  | fragment _ written => cases noFragments.symm.trans written

/-- The first entity is at one address only. -/
theorem IsFirst.unique {others : List String} {next : String}
    (isFirst : registry.IsFirst qualifies schema address before parent)
    (isFirstToo : registry.IsFirst qualifies schema other others next) : parent = next := by
  have sameAddress : other = address := by
    rcases isFirst.first other others next isFirstToo.here isFirstToo.qualified with same | later
    · exact same
    rcases isFirstToo.first address before parent isFirst.here isFirst.qualified with same | earlier
    · exact same.symm
    · exact absurd earlier later.not_precedes
  subst sameAddress
  obtain ⟨-, sameLast⟩ := List.append_inj' (isFirst.here.unique isFirstToo.here) rfl
  exact List.singleton_inj.mp sameLast

end Addresses

section Finding

/-- An entity of which a reference is composed is its target, or stands in it. -/
theorem EntityAt.behind_reference {candidate : String}
    (stands : registry.EntityAt (.obj own) address (way ++ [candidate]))
    (reference : Keyed.get? own "$ref" = some (.str text))
    (parse : Reference.parse text = .ok (.entity name))
    (registered : registry.get? name = some target) :
    (address = [0] ∧ candidate = name) ∨
      ∃ inner names, address = 0 :: inner ∧
        registry.EntityAt target inner (names ++ [candidate]) := by
  rcases stands.at_reference reference parse registered with
    ⟨rfl, same⟩ | ⟨inner, names, rfl, same, inside⟩
  · obtain ⟨-, sameLast⟩ := List.append_inj' (same.trans (List.nil_append [name]).symm) rfl
    exact .inl ⟨rfl, List.singleton_inj.mp sameLast⟩
  · rcases List.append_eq_cons_iff.mp same with ⟨-, same⟩ | ⟨later, -, rfl⟩
    · exact absurd (List.cons.inj same).2.symm inside.way_ne_nil
    · exact .inr ⟨inner, later, rfl, inside⟩

/-- The target of a reference that qualifies is the first entity. -/
theorem finds_reference_self (reference : Keyed.get? own "$ref" = some (.str text))
    (parse : Reference.parse text = .ok (.entity name))
    (registered : registry.get? name = some target) (isQualified : qualifies name) :
    registry.Finds qualifies (.obj own) (some name) := by
  refine ⟨[0], [], .here reference parse registered, isQualified, by simp, ?_⟩
  intro other way candidate stands _
  rcases stands.behind_reference reference parse registered with
    ⟨rfl, -⟩ | ⟨inner, names, rfl, inside⟩
  · exact .inl rfl
  · obtain ⟨index, rest, rfl⟩ := List.exists_cons_of_ne_nil inside.address_ne_nil
    exact .inr (.cons .nil)

/-- Behind a target that does not qualify stands what is found in it. -/
theorem finds_reference (reference : Keyed.get? own "$ref" = some (.str text))
    (parse : Reference.parse text = .ok (.entity name))
    (registered : registry.get? name = some target) (notQualified : ¬ qualifies name)
    {result : Option String} (behind : registry.Finds qualifies target result) :
    registry.Finds qualifies (.obj own) result := by
  have stands_inside : ∀ {address way candidate},
      registry.EntityAt (.obj own) address (way ++ [candidate]) → qualifies candidate →
      ∃ inner names, address = 0 :: inner ∧
        registry.EntityAt target inner (names ++ [candidate]) := by
    intro address way candidate stands isQualified
    rcases stands.behind_reference reference parse registered with ⟨-, rfl⟩ | inside
    · exact absurd isQualified notQualified
    · exact inside
  cases result with
  | none =>
    intro address way candidate stands isQualified
    obtain ⟨inner, names, -, inside⟩ := stands_inside stands isQualified
    exact behind inner names candidate inside isQualified
  | some parent =>
    obtain ⟨address, before, here, qualified, clear, first⟩ := behind
    refine ⟨0 :: address, name :: before, .inside reference parse registered here, qualified,
      List.forall_mem_cons.mpr ⟨notQualified, clear⟩, fun other way candidate stands isQualified => ?_⟩
    obtain ⟨inner, names, rfl, inside⟩ := stands_inside stands isQualified
    rcases first inner names candidate inside isQualified with rfl | later
    · exact .inl rfl
    · exact .inr (.cons later)

/-- Where no fragment is composed of an entity that qualifies, the fragments together are not. -/
theorem finds_fragments_none (noReference : Keyed.get? own "$ref" = none)
    (written : Keyed.get? own "allOf" = some (.arr items))
    (each : ∀ item ∈ items, registry.Finds qualifies item none) :
    registry.Finds qualifies (.obj own) none := by
  intro address way candidate stands
  obtain ⟨index, item, inner, -, placed, inItem⟩ := stands.in_fragment noReference written
  exact each item (List.mem_of_getElem? placed) inner way candidate inItem

/-- What the first fragment finds that finds something is what the fragments find. -/
theorem finds_fragments_some {earlier later : List Json}
    (noReference : Keyed.get? own "$ref" = none)
    (written : Keyed.get? own "allOf" = some (.arr (earlier ++ item :: later)))
    (none : ∀ other ∈ earlier, registry.Finds qualifies other none)
    (here : registry.Finds qualifies item (some parent)) :
    registry.Finds qualifies (.obj own) (some parent) := by
  obtain ⟨address, before, stands, qualified, clear, first⟩ := here
  have placed : (earlier ++ item :: later)[earlier.length]? = some item := by simp
  refine ⟨earlier.length :: address, before, .fragment noReference written placed stands, qualified,
    clear, fun other way candidate standsThere isQualified => ?_⟩
  obtain ⟨index, found, inner, rfl, placedToo, inFound⟩ :=
    standsThere.in_fragment noReference written
  rcases lt_trichotomy index earlier.length with before | same | after
  · have inEarlier : found ∈ earlier := by
      rw [List.getElem?_append_left before] at placedToo
      exact List.mem_of_getElem? placedToo
    exact absurd isQualified (none found inEarlier inner way candidate inFound)
  · subst same
    obtain rfl := Option.some.inj (placed.symm.trans placedToo)
    rcases first inner way candidate inFound isQualified with rfl | later
    · exact .inl rfl
    · exact .inr (.cons later)
  · exact .inr (.rel after)

end Finding

section Searching

/-- What searching does with a reference. -/
def searchTarget (registry : Registry) (wanted : Option String) (hops : Nat)
    (visited : List String) (reference : String) : Except SchemaError (Option String) := do
  let arrival ← registry.arrive visited reference (← Reference.parse reference)
  if ← registry.isParent wanted arrival then return some arrival.name
  else match hops with
    | 0 => .error (.notFound (.endless reference))
    | hops + 1 => registry.searchParent wanted hops arrival.visited arrival.schema

theorem searchParent_eq (schema : Json) : registry.searchParent wanted hops visited schema =
    schema.composition.references.findSomeM? (registry.searchTarget wanted hops visited) := by
  unfold searchParent
  rfl

theorem searchParent_plain (noReference : Keyed.get? own "$ref" = none)
    (noFragments : Keyed.get? own "allOf" = none) :
    registry.searchParent wanted hops visited (.obj own) = .ok none := by
  rw [searchParent_eq, Json.composition_plain noReference noFragments]
  rfl

theorem searchParent_reference (reference : Keyed.get? own "$ref" = some (.str text)) :
    registry.searchParent wanted hops visited (.obj own) =
      registry.searchTarget wanted hops visited text := by
  rw [searchParent_eq, Json.composition_reference reference, Composition.references,
    List.findSomeM?_cons]
  cases registry.searchTarget wanted hops visited text with
  | error e => rfl
  | ok found => cases found <;> rfl

theorem findSomeM?_allReferences (search : String → Except SchemaError (Option String))
    (items : List Json) :
    (Composition.allReferences (items.map Json.composition)).findSomeM? search =
      items.findSomeM? fun item => item.composition.references.findSomeM? search := by
  induction items with
  | nil => rfl
  | cons item rest ih =>
    rw [List.map_cons, Composition.allReferences, findSomeM?_append, ih, List.findSomeM?_cons]
    refine bind_congr fun found => ?_
    cases found <;> rfl

/-- Fragments are searched one after the other. -/
theorem searchParent_fragments (noReference : Keyed.get? own "$ref" = none)
    (written : Keyed.get? own "allOf" = some (.arr items)) :
    registry.searchParent wanted hops visited (.obj own) =
      items.findSomeM? (registry.searchParent wanted hops visited) := by
  have each : registry.searchParent wanted hops visited = fun item =>
      item.composition.references.findSomeM? (registry.searchTarget wanted hops visited) :=
    funext fun item => searchParent_eq item
  rw [searchParent_eq, each, Json.composition_fragments noReference written,
    Composition.references, findSomeM?_allReferences]

/-- The table of a schema that flattens can be looked up. -/
theorem exists_tablename? (named : registry.TablesHaveNames schema)
    (flattened : registry.flatten name schema = .ok found) :
    ∃ tablename, (registry.keywords schema).tablename? = .ok tablename := by
  obtain ⟨value, looked⟩ := exists_effectiveFrom "x-tablename" flattened
  change registry.keywords schema "x-tablename" = .ok value at looked
  unfold KeywordReader.tablename? KeywordReader.text? KeywordReader.as
  rw [looked, ok_bind]
  cases value with
  | none => exact ⟨none, rfl⟩
  | some value =>
    obtain ⟨own, parts, present⟩ := composes_of_effectiveFrom (.self schema) looked
    have isText := named own parts
    rw [present, Option.all_some] at isText
    cases value with
    | str text => exact ⟨some text, rfl⟩
    | _ => cases isText

/-- Whether an entity is the parent can be told, and says whether it qualifies. -/
theorem exists_isParent {arrival : Arrival}
    (registered : registry.get? arrival.name = some arrival.schema)
    (named : registry.TablesHaveNames arrival.schema)
    (flattened : registry.flatten name arrival.schema = .ok found) :
    ∃ isParent, registry.isParent wanted arrival = .ok isParent ∧
      (isParent = true ↔ registry.Qualifies wanted arrival.name) := by
  cases wanted with
  | some parent => exact ⟨_, rfl, decide_eq_true_iff⟩
  | none =>
    obtain ⟨tablename, looked⟩ := exists_tablename? named flattened
    refine ⟨tablename.isSome, by rw [isParent, looked]; rfl, ?_⟩
    rw [Option.isSome_iff_exists]
    constructor
    · rintro ⟨text, rfl⟩
      exact ⟨arrival.schema, text, registered, looked⟩
    · rintro ⟨schema, text, registeredToo, lookedToo⟩
      obtain rfl := Option.some.inj (registered.symm.trans registeredToo)
      exact ⟨text, Except.ok.inj (looked.symm.trans lookedToo)⟩

theorem TablesHaveNames.of_composes {part : Json} (named : registry.TablesHaveNames schema)
    (parts : registry.Composes schema part) : registry.TablesHaveNames part :=
  fun own further => named own (parts.trans further)

/-- On a chain after which a schema flattens, the search for a parent ends with the first entity
that qualifies, or with nothing where none does. -/
theorem exists_searchParent (references : registry.ComposedLocally schema)
    (named : registry.TablesHaveNames schema) (enough : hops ≤ registry.chainLimit)
    (flattened : registry.flattenFrom none hops visited name schema = .ok found) :
    ∃ result, registry.searchParent wanted hops visited schema = .ok result ∧
      registry.Finds (registry.Qualifies wanted) schema result := by
  -- The search follows the references that flattening follows, on the same chain: where flattening
  -- comes through, every target is reached with as many references left.
  induction hops, schema using Json.byFollowing generalizing visited name found with
  | notObject hops schema notObject => simp [flattenFrom_notObject notObject] at flattened
  | plain hops own noReference noFragments =>
    refine ⟨none, searchParent_plain noReference noFragments, fun address way candidate stands => ?_⟩
    exact absurd stands (not_entityAt_of_plain noReference noFragments)
  | reference hops own target reference shorter =>
    rw [flattenFrom_reference reference] at flattened
    obtain ⟨text, parsed, rfl, parse, ⟨skipping, -⟩ | followed⟩ := flattenTarget_eq_ok flattened
    · cases skipping
    obtain ⟨-, fresh, next, schema, fewer, rfl, led, rest⟩ := followed
    obtain ⟨entity, rfl⟩ := references text (.self reference) parsed parse
    obtain ⟨rfl, registered⟩ := target_entity_eq_ok.mp led
    have inTarget : registry.Composes (.obj own) schema := .reference reference parse led (.self _)
    have namedInside := named.of_composes inTarget
    have arrived : registry.arrive visited text (.entity next) =
        .ok ⟨next, schema, visited ++ [next]⟩ :=
      arrive_eq_ok.mpr ⟨by simpa using fresh, led, rfl⟩
    -- the table of the target is looked up on a chain of its own
    have flattenedAlone : registry.flatten next schema = .ok found :=
      flattenFrom_mono rest (by omega) (List.nil_subset _)
    obtain ⟨isParent, told, qualifies⟩ : ∃ isParent,
        registry.isParent wanted ⟨next, schema, visited ++ [next]⟩ = .ok isParent ∧
          (isParent = true ↔ registry.Qualifies wanted next) :=
      exists_isParent registered namedInside flattenedAlone
    rw [searchParent_reference reference, searchTarget, parse, ok_bind, arrived, ok_bind, told,
      ok_bind]
    cases isParent with
    | true =>
      exact ⟨some next, rfl, finds_reference_self reference parse registered (qualifies.mp rfl)⟩
    | false =>
      have notQualified : ¬ registry.Qualifies wanted next := fun isQualified =>
        Bool.false_ne_true (qualifies.mpr isQualified)
      obtain ⟨result, searched, finds⟩ := shorter fewer (by omega)
        (references.of_reference reference parse led) namedInside (by omega) rest
      exact ⟨result, searched, finds_reference reference parse registered notQualified finds⟩
  | malformed hops own value noReference written noList =>
    simp [flattenFrom_malformed noReference written noList] at flattened
  | fragments hops own items noReference written ih =>
    obtain ⟨flats, each, -⟩ := (flattenFrom_fragments_eq_ok noReference written).mp flattened
    have search : ∀ item ∈ items, ∃ result,
        registry.searchParent wanted hops visited item = .ok result ∧
          registry.Finds (registry.Qualifies wanted) item result := by
      intro item member
      obtain ⟨_, -, inner, flattenedItem, -⟩ := exists_of_forall₂_left each member
      have inItem : registry.Composes (.obj own) item :=
        .fragment noReference written member (.self _)
      exact ih item member (references.of_fragment noReference written member)
        (named.of_composes inItem) enough flattenedItem
    have finds : ∀ item ∈ items, ∀ result,
        registry.searchParent wanted hops visited item = .ok result →
          registry.Finds (registry.Qualifies wanted) item result := by
      intro item member result searched
      obtain ⟨_, searchedToo, finds⟩ := search item member
      rwa [Except.ok.inj (searched.symm.trans searchedToo)]
    rw [searchParent_fragments noReference written]
    rcases findSomeM?_first fun item member => (search item member).imp fun _ => And.left with
      ⟨nothing, all⟩ | ⟨earlier, item, later, parent, rfl, nothing, here, first⟩
    · exact ⟨none, nothing, finds_fragments_none noReference written
        fun item member => finds item member none (all item member)⟩
    · refine ⟨some parent, first, finds_fragments_some noReference written
        (fun other member => ?_) (finds item (by simp) _ here)⟩
      exact finds other (List.mem_append_left _ member) none (nothing other member)

/-- The parent of a schema that inherits is what the search finds. -/
theorem parent?_eq_search {asked : Inherits} (flattened : registry.flatten name schema = .ok found)
    (inherits : found.keywords.inherits? = .ok (some asked)) (asks : asked ≠ .enabled false) :
    registry.parent? name schema =
      registry.searchParent asked.parentName? registry.chainLimit [] schema >>= fun result =>
        match result with
        | some parent => .ok (some parent)
        | none => .error (.malformedSchema (asked.missing name)) := by
  unfold parent?
  rw [flattened, ok_bind]
  dsimp only
  rw [inherits, ok_bind]
  cases asked with
  | parent wanted => rfl
  | enabled value =>
    cases value with
    | false => exact absurd rfl asks
    | true => rfl

theorem TablesNamed.of_registered (named : registry.TablesNamed)
    (references : registry.ComposedLocally schema) (registered : registry.get? name = some schema) :
    registry.TablesHaveNames schema := fun _ parts =>
  references.of_layers (fun layer => (presentValue? layer "x-tablename").all Json.isString = true)
    parts (named _ (Keyed.mem_of_get? registered)) named

/-- The search for the parent of an entity that inherits is sound and complete. In a registry where
every reference stays within it, and tables are named by texts, an entity that flattens has a parent
exactly if it is composed of an entity that qualifies; the parent is the first of these, and none
stands before it on the way. Where none qualifies, this is the error. No entity is met again behind
itself, and no search within the entity fails. -/
theorem parent?_eq_first {asked : Inherits} (references : registry.RefersLocally)
    (named : registry.TablesNamed) (registered : registry.get? name = some schema)
    (flattened : registry.flatten name schema = .ok found)
    (inherits : found.keywords.inherits? = .ok (some asked)) (asks : asked ≠ .enabled false) :
    (∀ parent, registry.parent? name schema = .ok (some parent) ↔ ∃ address before,
      registry.IsFirst (registry.Qualifies asked.parentName?) schema address before parent) ∧
    ((∃ parent, registry.parent? name schema = .ok (some parent)) ↔ ∃ address way candidate,
      registry.EntityAt schema address (way ++ [candidate]) ∧
        registry.Qualifies asked.parentName? candidate) ∧
    ((∀ parent, registry.parent? name schema ≠ .ok (some parent)) →
      registry.parent? name schema = .error (.malformedSchema (asked.missing name))) ∧
    (∀ address way, registry.EntityAt schema address way → way.Nodup) ∧
    ∀ wanted, ∃ result, registry.searchParent wanted registry.chainLimit [] schema = .ok result := by
  have composed : registry.ComposedLocally schema :=
    references.composedLocally (references _ (Keyed.mem_of_get? registered))
  have search : ∀ wanted, ∃ result,
      registry.searchParent wanted registry.chainLimit [] schema = .ok result ∧
        registry.Finds (registry.Qualifies wanted) schema result := fun wanted =>
    exists_searchParent composed (named.of_registered composed registered) (Nat.le_refl _) flattened
  have acyclic : ¬ registry.ReachesCycle schema :=
    (derives_of_flattenFrom flattened).not_reachesCycle
  obtain ⟨result, searched, finds⟩ := search asked.parentName?
  rw [parent?_eq_search flattened inherits asks, searched, ok_bind]
  refine ⟨fun parent => ?_, ?_, fun noParent => ?_, fun address way stands => stands.nodup acyclic,
    fun wanted => (search wanted).imp fun _ => And.left⟩
  · cases result with
    | none =>
      refine iff_of_false (by simp) ?_
      rintro ⟨address, before, isFirst⟩
      exact finds address before parent isFirst.here isFirst.qualified
    | some first =>
      obtain ⟨address, before, isFirst⟩ := finds
      constructor
      · intro same
        obtain rfl := Option.some.inj (Except.ok.inj same)
        exact ⟨address, before, isFirst⟩
      · rintro ⟨other, others, isFirstToo⟩
        rw [isFirst.unique isFirstToo]
  · cases result with
    | none =>
      refine iff_of_false (by simp) ?_
      rintro ⟨address, way, candidate, stands, isQualified⟩
      exact finds address way candidate stands isQualified
    | some first =>
      obtain ⟨address, before, isFirst⟩ := finds
      exact iff_of_true ⟨first, rfl⟩ ⟨address, before, first, isFirst.here, isFirst.qualified⟩
  · cases result with
    | none => rfl
    | some first => exact absurd rfl (noParent first)

/-- Managers inherit from the closest entity with a table. -/
def manager : Json :=
  .obj [("allOf", .arr [.obj [("allOf", .arr [.obj [("$ref", .str "#/Record")]])],
    .obj [("$ref", .str "#/Employee")], .obj [("$ref", .str "#/Person")]]),
    ("x-tablename", .str "manager"), ("x-inherits", .bool true)]

/-- Directors ask for their parent by its name. -/
def director : Json :=
  .obj [("allOf", .arr [.obj [("$ref", .str "#/Manager")]]), ("x-tablename", .str "director"),
    ("x-inherits", .str "Person")]

/-- Entities of a company. Employees have a table by reference alone. -/
def careers : Registry where
  entries := [
    ("Record", .obj [("type", .str "object")]),
    ("Person", .obj [("allOf", .arr [.obj [("$ref", .str "#/Record")],
      .obj [("x-tablename", .str "person")]])]),
    ("Employee", .obj [("$ref", .str "#/components/schemas/Person")]),
    ("Manager", manager), ("Director", director)]
  place := none
  documents := Documents.empty

/-- A manager is an employee first. What makes a director a person stands behind entities of other
names. -/
theorem parent?_eq_first_careers : careers.RefersLocally ∧ careers.TablesNamed ∧
    (∃ address before,
      careers.IsFirst (careers.Qualifies none) manager address before "Employee") ∧
    ∃ address before,
      careers.IsFirst (careers.Qualifies (some "Person")) director address before "Person" := by
  have references : careers.RefersLocally := by decide +kernel
  have named : careers.TablesNamed := by decide +kernel
  have managed : careers.flatten "Manager" manager = .ok ⟨"Manager", [("type", .str "object"),
      ("x-tablename", .str "manager"), ("x-inherits", .bool true)]⟩ := by cbv
  have directed : careers.flatten "Director" director = .ok ⟨"Director", [("type", .str "object"),
      ("x-tablename", .str "director"), ("x-inherits", .str "Person")]⟩ := by cbv
  obtain ⟨closest, -⟩ := parent?_eq_first references named rfl managed rfl (by decide)
  obtain ⟨byName, -⟩ := parent?_eq_first references named rfl directed rfl (by decide)
  exact ⟨references, named, (closest "Employee").mp (by cbv), (byName "Person").mp (by cbv)⟩

end Searching

end Registry

end EntityMapping
