import EntityMapping.Proofs.Additions
import EntityMapping.Proofs.LocalComposition

/-!
Registries whose entities have additions: fragments laid over their schemas, in any number and on
any of them. A schema is flattened alike in two registries that differ in their additions only, to
the same name, and how the values of a keyword correspond is left open. Two registries with the same
schemas in another order are a case without additions.
-/

set_option autoImplicit false
set_option relaxedAutoImplicit false

namespace EntityMapping

open Keyed (Distinct)
open Registry (wrap propertyFragment backrefFragment)

namespace Additions

/-- The fragments that are laid over a schema, the innermost first. -/
def fragments (additions : Additions) : List (Keyed Json) :=
  (additions.backrefs.map backrefFragment).toList ++
    additions.keys.map fun key => propertyFragment key.1 (.obj key.2)

/-- Nothing is added. -/
def nothing : Additions := .ofBackrefs none (by simp)

/-- A flat schema with everything that is added laid over it. -/
def laidOn (additions : Additions) (flat : Keyed Json) : Keyed Json :=
  additions.fragments.foldl overlaid flat

/-- The value of a keyword once everything that is added is laid over the schema. -/
def valueOver (additions : Additions) (keyword : String) (value : Option Json) : Option Json :=
  additions.fragments.foldl
    (fun below fragment => laidValue keyword below (Keyed.get? fragment keyword)) value

variable {additions : Additions} {fragment : Keyed Json} {keyword : String}

theorem apply_eq (additions : Additions) (schema : Json) :
    additions.apply schema = additions.fragments.foldl wrap schema := by
  unfold apply fragments
  rw [List.foldl_append, List.foldl_map]
  cases additions.backrefs <;> rfl

theorem isFragment_of_mem (member : fragment ∈ additions.fragments) : IsFragment fragment := by
  rcases List.mem_append.mp member with inBackrefs | inKeys
  · obtain ⟨backrefs, -, rfl⟩ := Option.map_eq_some_iff.mp (Option.mem_toList.mp inBackrefs)
    exact isFragment_backrefFragment backrefs
  · obtain ⟨key, -, rfl⟩ := List.mem_map.mp inKeys
    exact isFragment_propertyFragment _ _

/-- Additions say nothing but the type, properties and back references. -/
theorem silent_of_mem (member : fragment ∈ additions.fragments) (notType : keyword ≠ "type")
    (notProperties : keyword ≠ "properties") (notBackrefs : keyword ≠ "x-backrefs") :
    Keyed.get? fragment keyword = none := by
  rcases List.mem_append.mp member with inBackrefs | inKeys
  · obtain ⟨backrefs, -, rfl⟩ := Option.map_eq_some_iff.mp (Option.mem_toList.mp inBackrefs)
    simp [backrefFragment, Keyed.get?_cons, Ne.symm notType, Ne.symm notBackrefs]
  · obtain ⟨key, -, rfl⟩ := List.mem_map.mp inKeys
    simp [propertyFragment, Keyed.get?_cons, Ne.symm notType, Ne.symm notProperties]

theorem type_of_mem (member : fragment ∈ additions.fragments) :
    Keyed.get? fragment "type" = some (.str "object") := by
  rcases List.mem_append.mp member with inBackrefs | inKeys
  · obtain ⟨backrefs, -, rfl⟩ := Option.map_eq_some_iff.mp (Option.mem_toList.mp inBackrefs)
    rfl
  · obtain ⟨key, -, rfl⟩ := List.mem_map.mp inKeys
    rfl

theorem valueOver_of_silent (value : Option Json) (notType : keyword ≠ "type")
    (notProperties : keyword ≠ "properties") (notBackrefs : keyword ≠ "x-backrefs") :
    additions.valueOver keyword value = value := by
  unfold valueOver
  have silent := fun fragment (member : fragment ∈ additions.fragments) =>
    silent_of_mem member notType notProperties notBackrefs
  generalize additions.fragments = fragments at silent ⊢
  induction fragments with
  | nil => rfl
  | cons first rest ih =>
    rw [List.foldl_cons, silent first List.mem_cons_self, laidValue]
    exact ih fun fragment member => silent fragment (List.mem_cons_of_mem _ member)

/-- What is an object stays one, whatever is added. -/
theorem valueOver_type : additions.valueOver "type" (some (.str "object")) =
    some (.str "object") := by
  unfold valueOver
  have typed := fun fragment (member : fragment ∈ additions.fragments) => type_of_mem member
  generalize additions.fragments = fragments at typed ⊢
  induction fragments with
  | nil => rfl
  | cons first rest ih =>
    have joined : laidValue "type" (some (.str "object")) (some (.str "object")) =
        some (.str "object") := rfl
    rw [List.foldl_cons, typed first List.mem_cons_self, joined]
    exact ih fun fragment member => typed fragment (List.mem_cons_of_mem _ member)

theorem distinct_laidOn {flat : Keyed Json} (distinct : Distinct flat) :
    Distinct (additions.laidOn flat) := by
  unfold laidOn
  induction additions.fragments generalizing flat with
  | nil => exact distinct
  | cons first rest ih => exact ih (distinct_overlaid _ _)

theorem get?_laidOn {flat : Keyed Json} (distinct : Distinct flat) :
    Keyed.get? (additions.laidOn flat) keyword =
      additions.valueOver keyword (Keyed.get? flat keyword) := by
  unfold laidOn valueOver
  have fragments := fun fragment (member : fragment ∈ additions.fragments) =>
    isFragment_of_mem member
  generalize additions.fragments = list at fragments
  induction list generalizing flat with
  | nil => rfl
  | cons first rest ih =>
    rw [List.foldl_cons, List.foldl_cons, ih (distinct_overlaid _ _)
      fun fragment member => fragments fragment (List.mem_cons_of_mem _ member),
      get?_overlaid distinct (fragments first List.mem_cons_self)]

@[simp] theorem apply_nothing (schema : Json) : nothing.apply schema = schema := rfl

@[simp] theorem laidOn_nothing (flat : Keyed Json) : nothing.laidOn flat = flat := rfl

@[simp] theorem valueOver_nothing (value : Option Json) : nothing.valueOver keyword value = value :=
  rfl

/-- The additions to what a reference leads to; they are added to entities only. -/
def reached (additions : String → Additions) : Reference → Additions
  | .entity name => additions name
  | .remote _ _ => nothing

end Additions

namespace Registry

variable {registry : Registry} {skip : Option String} {hops : Nat} {visited : List String}
  {name : String} {schema : Json}

/-- A schema that is no reference is flattened under the name it is asked for. -/
theorem name_of_flattenFrom {flat : FlatSchema} (noReference : schema.get? "$ref" = none)
    (flattened : registry.flattenFrom skip hops visited name schema = .ok flat) :
    flat.name = name := by
  cases schema using Json.byComposition with
  | notObject schema notObject => simp [flattenFrom_notObject notObject] at flattened
  | plain own noReference noFragments =>
    rw [flattenFrom_plain noReference noFragments] at flattened
    exact (Except.ok.inj flattened) ▸ rfl
  | reference own target reference =>
    simp [Json.get?, Json.fields?, reference] at noReference
  | malformed own value noReference written noList =>
    simp [flattenFrom_malformed noReference written noList] at flattened
  | fragments own items noReference written =>
    rw [flattenFrom_fragments noReference written] at flattened
    obtain ⟨flats, -, merged⟩ := bind_eq_ok.mp flattened
    exact (Except.ok.inj merged) ▸ rfl

theorem flattenFrom_foldl_wrap {fragments : List (Keyed Json)}
    (each : ∀ fragment ∈ fragments, IsFragment fragment)
    (named : fragments = [] ∨ schema.get? "$ref" = none) :
    registry.flattenFrom skip hops visited name (fragments.foldl wrap schema) =
      (registry.flattenFrom skip hops visited name schema).map fun flat =>
        ⟨flat.name, fragments.foldl overlaid flat.fields⟩ := by
  induction fragments using List.reverseRecOn with
  | nil =>
    rw [List.foldl_nil]
    cases registry.flattenFrom skip hops visited name schema <;> rfl
  | append_singleton before last ih =>
    have noReference : schema.get? "$ref" = none := named.resolve_left (by simp)
    rw [List.foldl_append, List.foldl_cons, List.foldl_nil,
      flattenFrom_wrap (each last (by simp)),
      ih (fun fragment member => each fragment (by simp [member])) (.inr noReference)]
    cases flattened : registry.flattenFrom skip hops visited name schema with
    | error e => rfl
    | ok flat => simp [Except.map, List.foldl_append, name_of_flattenFrom noReference flattened]

/-- A schema with additions is flattened as the schema below, with the additions on top. -/
theorem flattenFrom_apply {additions : Additions}
    (named : additions.fragments = [] ∨ schema.get? "$ref" = none) :
    registry.flattenFrom skip hops visited name (additions.apply schema) =
      (registry.flattenFrom skip hops visited name schema).map fun flat =>
        ⟨flat.name, additions.laidOn flat.fields⟩ := by
  rw [Additions.apply_eq]
  exact flattenFrom_foldl_wrap (fun _ member => Additions.isFragment_of_mem member) named

/-- What flattening a schema goes through if an entity is skipped: the schema itself, its fragments,
and what its references lead to, however far down. -/
inductive Follows (registry : Registry) (skip : Option String) : Json → Json → Prop
  | self (schema : Json) : Follows registry skip schema schema
  | fragment {schema item : Json} {own : Keyed Json} {items : List Json} :
      Follows registry skip schema (.obj own) → Keyed.get? own "$ref" = none →
      Keyed.get? own "allOf" = some (.arr items) → item ∈ items → Follows registry skip schema item
  | reference {schema target : Json} {own : Keyed Json} {text name : String} {parsed : Reference} :
      Follows registry skip schema (.obj own) → Keyed.get? own "$ref" = some (.str text) →
      Reference.parse text = .ok parsed → skip ≠ some parsed.name →
      registry.target text parsed = .ok (name, target) → Follows registry skip schema target

/-- Flattening a schema goes through an entity. -/
def Meets (registry : Registry) (skip : Option String) (schema : Json) (entity : String) : Prop :=
  skip ≠ some entity ∧ ∃ own text, registry.Follows skip schema (.obj own) ∧
    Keyed.get? own "$ref" = some (.str text) ∧ Reference.parse text = .ok (.entity entity)

theorem Follows.composes {part : Json} (follows : registry.Follows skip schema part) :
    registry.Composes schema part := by
  induction follows with
  | self => exact .self _
  | fragment _ noReference written member ih =>
    exact ih.trans (.fragment noReference written member (.self _))
  | reference _ reference parse _ led ih => exact ih.trans (.reference reference parse led (.self _))

theorem Meets.reachesEntity {entity : String} (meets : registry.Meets skip schema entity) :
    registry.ReachesEntity schema entity := by
  obtain ⟨-, own, text, follows, reference, parse⟩ := meets
  exact ⟨text, ⟨own, follows.composes, reference⟩, parse⟩

/-- A registry that has the entities of another one, in any order, with additions. A schema that is
only a reference gets none. -/
structure Dresses (base : Registry) (additions : String → Additions) (dressed : Registry) :
    Prop where
  get? : ∀ name, dressed.get? name = (base.get? name).map (additions name).apply
  place : dressed.place = base.place
  documents : dressed.documents = base.documents
  length : dressed.entries.length = base.entries.length
  named : ∀ name schema, base.get? name = some schema →
    (additions name).fragments = [] ∨ schema.get? "$ref" = none

namespace Dresses

variable {base dressed one two : Registry} {additions first second : String → Additions}

theorem refl (base : Registry) : base.Dresses (fun _ => .nothing) base where
  get? name := by cases base.get? name <;> rfl
  place := rfl
  documents := rfl
  length := rfl
  named _ _ _ := .inl rfl

theorem chainLimit (dresses : base.Dresses additions dressed) :
    dressed.chainLimit = base.chainLimit := by
  simp only [Registry.chainLimit, dresses.place, dresses.documents, dresses.length]

/-- A reference leads to the same place in both registries, and what is there has its additions. -/
theorem target (dresses : base.Dresses additions dressed) (text : String) (parsed : Reference) :
    dressed.target text parsed = (base.target text parsed).map fun found =>
      (found.1, (Additions.reached additions parsed).apply found.2) := by
  cases parsed with
  | entity name =>
    simp only [Registry.target, dresses.get?]
    cases base.get? name <;> rfl
  | remote document pointer =>
    have same : dressed.target text (.remote document pointer) =
        base.target text (.remote document pointer) := by
      simp only [Registry.target, dresses.place, dresses.documents]
    rw [same]
    cases base.target text (.remote document pointer) <;> rfl

theorem named_of_target (dresses : base.Dresses additions dressed) {text name : String}
    {parsed : Reference} {schema : Json} (led : base.target text parsed = .ok (name, schema)) :
    (Additions.reached additions parsed).fragments = [] ∨ schema.get? "$ref" = none := by
  cases parsed with
  | entity entity => exact dresses.named _ _ (target_entity_eq_ok.mp led).2
  | remote => exact .inl rfl

/-- Giving an entity other additions. -/
theorem insert (dresses : base.Dresses additions dressed)
    {entity : String} {schema : Json}
    (registered : base.get? entity = some schema) (noReference : schema.get? "$ref" = none)
    (added : Additions) :
    base.Dresses (fun name => if name = entity then added else additions name)
      (dressed.insert entity (added.apply schema)) where
  get? name := by
    have inserted : (dressed.insert entity (added.apply schema)).get? name =
        if name = entity then some (added.apply schema) else dressed.get? name :=
      Keyed.get?_set _ _ _ _
    rw [inserted]
    by_cases same : name = entity
    · simp [same, registered]
    · simp [same, dresses.get?]
  place := dresses.place
  documents := dresses.documents
  length := by
    have entry : dressed.get? entity = some ((additions entity).apply schema) := by
      rw [dresses.get?, registered, Option.map_some]
    rw [← dresses.length]
    exact Keyed.length_set _ _ (Keyed.mem_keys_of_get? entry)
  named name other found := by
    by_cases same : name = entity
    · subst same
      obtain rfl := Option.some.inj (registered.symm.trans found)
      exact .inr noReference
    · rw [if_neg same]
      exact dresses.named name other found

/-- Giving an entity without additions another schema. -/
theorem insert_base (dresses : base.Dresses additions dressed) {entity : String} {schema : Json}
    (registered : base.get? entity = some schema) (bare : (additions entity).fragments = [])
    (other : Json) : (base.insert entity other).Dresses additions (dressed.insert entity other) where
  get? name := by
    have inserted : ∀ registry : Registry, (registry.insert entity other).get? name =
        if name = entity then some other else registry.get? name := fun registry =>
      Keyed.get?_set _ _ _ _
    rw [inserted, inserted]
    by_cases same : name = entity
    · rw [if_pos same, if_pos same, same, Option.map_some, Additions.apply_eq, bare]
      rfl
    · rw [if_neg same, if_neg same, dresses.get?]
  place := dresses.place
  documents := dresses.documents
  length := by
    have entry : dressed.get? entity = some ((additions entity).apply schema) := by
      rw [dresses.get?, registered, Option.map_some]
    exact (Keyed.length_set _ _ (Keyed.mem_keys_of_get? entry)).trans
      (dresses.length.trans (Keyed.length_set _ _ (Keyed.mem_keys_of_get? registered)).symm)
  named name schema found := by
    by_cases same : name = entity
    · exact .inl (same ▸ bare)
    · refine dresses.named name schema ?_
      rwa [Registry.insert, Registry.get?, Keyed.get?_set_of_ne _ _ same] at found

end Dresses

/-- The values of a keyword of two flat schemas correspond; each has its keywords once. -/
def Corresponds (keyword : String) (related : Option Json → Option Json → Prop)
    (flat other : FlatSchema) : Prop :=
  flat.name = other.name ∧ Distinct flat.fields ∧ Distinct other.fields ∧
    related (Keyed.get? flat.fields keyword) (Keyed.get? other.fields keyword)

/-- A correspondence between the values of a keyword that outlasts laying fragments over each other
and the additions of two registries, in what flattening a schema goes through. -/
structure Keeps (base one : Registry) (first second : String → Additions) (skip : Option String)
    (top : Json) (keyword : String) (related : Option Json → Option Json → Prop) : Prop where
  absent : related none none
  written : ∀ own, base.Follows skip top (.obj own) →
    Distinct own ∧ related (Keyed.get? own keyword) (Keyed.get? own keyword)
  laid : ∀ {before before' value value' : Option Json}, related before before' →
    related value value' →
      related (laidValue keyword before value) (laidValue keyword before' value')
  added : ∀ name schema flat value, base.get? name = some schema → base.Meets skip top name →
    one.Derives skip schema flat → related (Keyed.get? flat keyword) value →
      related ((first name).valueOver keyword (Keyed.get? flat keyword))
        ((second name).valueOver keyword value)

namespace Keeps

variable {base one two : Registry} {first second : String → Additions} {top : Json}
  {keyword : String} {related : Option Json → Option Json → Prop}

theorem layOver (keeps : Keeps base one first second skip top keyword related)
    {laid laid' flat flat' : Keyed Json} (distinct : Distinct flat) (distinctToo : Distinct flat')
    (below : related (Keyed.get? laid keyword) (Keyed.get? laid' keyword))
    (above : related (Keyed.get? flat keyword) (Keyed.get? flat' keyword)) :
    related (Keyed.get? (EntityMapping.layOver laid flat) keyword)
      (Keyed.get? (EntityMapping.layOver laid' flat') keyword) := by
  rw [get?_layOver _ distinct, get?_layOver _ distinctToo]
  exact keeps.laid below above

/-- A reference is followed alike, if what is behind it is flattened alike. -/
theorem flattenTarget (keeps : Keeps base one first second skip top keyword related)
    (dressesOne : base.Dresses first one) (dressesTwo : base.Dresses second two)
    {own : Keyed Json} {target : Json} (follows : base.Follows skip top (.obj own))
    (reference : Keyed.get? own "$ref" = some target)
    (shorter : ∀ fewer < hops, ∀ {visited : List String} {name : String} {schema : Json},
      base.Follows skip top schema → Alike (Corresponds keyword related)
        (one.flattenFrom skip fewer visited name schema)
        (two.flattenFrom skip fewer visited name schema)) :
    Alike (Corresponds keyword related) (one.flattenTarget skip hops visited name target)
      (two.flattenTarget skip hops visited name target) := by
  cases read : Reference.read target with
  | error e =>
    rw [flattenTarget_of_unread read, flattenTarget_of_unread read]
    exact .error e
  | ok parsed =>
  obtain ⟨text, rfl, parse⟩ := Reference.read_eq_ok.mp read
  rw [flattenTarget_text, flattenTarget_text, parse, ok_bind, ok_bind]
  split
  · exact .ok ⟨rfl, Keyed.distinct_nil, Keyed.distinct_nil, keeps.absent⟩
  rename_i notSkipped
  split
  · exact .error _
  rw [dressesOne.target, dressesTwo.target]
  cases led : base.target text parsed with
  | error e => exact .error e
  | ok found =>
  obtain ⟨next, schema⟩ := found
  cases hops with
  | zero => exact .error _
  | succ fewer =>
  have inTarget := Follows.reference follows reference parse notSkipped led
  simp only [Except.map, ok_bind]
  rw [flattenFrom_apply (dressesOne.named_of_target led),
    flattenFrom_apply (dressesTwo.named_of_target led)]
  refine (shorter fewer (Nat.lt_succ_self _) inTarget).map_of_eq fun flat other flattened same => ?_
  obtain ⟨sameName, distinct, distinctToo, same⟩ := same
  refine ⟨sameName, Additions.distinct_laidOn distinct, Additions.distinct_laidOn distinctToo, ?_⟩
  dsimp only
  rw [Additions.get?_laidOn distinct, Additions.get?_laidOn distinctToo]
  cases parsed with
  | remote => exact same
  | entity entity =>
    obtain ⟨-, registered⟩ := target_entity_eq_ok.mp led
    exact keeps.added entity schema _ _ registered ⟨notSkipped, _, _, follows, reference, parse⟩
      (derives_of_flattenFrom flattened) same

/-- Flattening is alike in both registries. -/
theorem flattenFrom (keeps : Keeps base one first second skip top keyword related)
    (dressesOne : base.Dresses first one) (dressesTwo : base.Dresses second two)
    (follows : base.Follows skip top schema) : Alike (Corresponds keyword related)
      (one.flattenFrom skip hops visited name schema)
      (two.flattenFrom skip hops visited name schema) := by
  induction hops, schema using Json.byFollowing generalizing visited name with
  | notObject hops schema notObject =>
    rw [flattenFrom_notObject notObject, flattenFrom_notObject notObject]
    exact .error _
  | plain hops own noReference noFragments =>
    rw [flattenFrom_plain noReference noFragments, flattenFrom_plain noReference noFragments]
    obtain ⟨distinct, same⟩ := keeps.written own follows
    exact .ok ⟨rfl, distinct, distinct, same⟩
  | reference hops own target reference shorter =>
    rw [flattenFrom_reference reference, flattenFrom_reference reference]
    exact keeps.flattenTarget dressesOne dressesTwo follows reference
      fun fewer less => shorter fewer less
  | malformed hops own value noReference written noList =>
    rw [flattenFrom_malformed noReference written noList,
      flattenFrom_malformed noReference written noList]
    exact .error _
  | fragments hops own items noReference written ih =>
    rw [flattenFrom_fragments noReference written, flattenFrom_fragments noReference written]
    have each : Alike (List.Forall₂ fun flat other => Distinct flat ∧ Distinct other ∧
          related (Keyed.get? flat keyword) (Keyed.get? other keyword))
        (items.mapM fun item => (one.flattenFrom skip hops visited name item).map FlatSchema.fields)
        (items.mapM fun item =>
          (two.flattenFrom skip hops visited name item).map FlatSchema.fields) := by
      refine .mapM fun item member => ?_
      exact (ih item member (.fragment follows noReference written member)).map
        fun _ _ same => same.2
    refine each.bind fun flats others each => ?_
    obtain ⟨distinct, same⟩ := keeps.written own follows
    have distinctBeside := Keyed.distinct_without distinct "allOf"
    refine .ok ⟨rfl, ?_, ?_, ?_⟩
    · rw [mergeFragments_append]
      exact distinct_layOver (distinct_mergeFragments _) _
    · rw [mergeFragments_append]
      exact distinct_layOver (distinct_mergeFragments _) _
    · dsimp only
      rw [mergeFragments_append, mergeFragments_append]
      refine keeps.layOver distinctBeside distinctBeside
        (related_mergeFragments keeps.absent keeps.laid each) ?_
      rw [Keyed.get?_without]
      split
      · exact keeps.absent
      · exact same

end Keeps

/-- A schema amounts to the same in both registries if what flattening it goes through has the same
additions. -/
theorem Dresses.flattenFrom_congr {base one two : Registry} {first second : String → Additions}
    {top : Json} (dressesOne : base.Dresses first one) (dressesTwo : base.Dresses second two)
    (same : ∀ entity, base.Meets skip top entity → first entity = second entity)
    (follows : base.Follows skip top schema) :
    one.flattenFrom skip hops visited name schema =
      two.flattenFrom skip hops visited name schema := by
  induction hops, schema using Json.byFollowing generalizing visited name with
  | notObject hops schema notObject =>
    rw [flattenFrom_notObject notObject, flattenFrom_notObject notObject]
  | plain hops own noReference noFragments =>
    rw [flattenFrom_plain noReference noFragments, flattenFrom_plain noReference noFragments]
  | malformed hops own value noReference written noList =>
    rw [flattenFrom_malformed noReference written noList,
      flattenFrom_malformed noReference written noList]
  | fragments hops own items noReference written ih =>
    rw [flattenFrom_fragments noReference written, flattenFrom_fragments noReference written]
    refine congrArg (· >>= _) (mapM_congr fun item member => ?_)
    rw [ih item member (.fragment follows noReference written member)]
  | reference hops own target reference shorter =>
    rw [flattenFrom_reference reference, flattenFrom_reference reference]
    cases read : Reference.read target with
    | error e => rw [flattenTarget_of_unread read, flattenTarget_of_unread read]
    | ok parsed =>
    obtain ⟨text, rfl, parse⟩ := Reference.read_eq_ok.mp read
    rw [flattenTarget_text, flattenTarget_text, parse, ok_bind, ok_bind]
    split
    · rfl
    rename_i notSkipped
    split
    · rfl
    rw [dressesOne.target, dressesTwo.target]
    cases led : base.target text parsed with
    | error e => rfl
    | ok found =>
    cases hops with
    | zero => rfl
    | succ fewer =>
    have inTarget := Follows.reference follows reference parse notSkipped led
    have sameReached : Additions.reached first parsed = Additions.reached second parsed := by
      cases parsed with
      | entity entity => exact same entity ⟨notSkipped, own, text, follows, reference, parse⟩
      | remote => rfl
    simp only [Except.map, ok_bind]
    rw [flattenFrom_apply (dressesOne.named_of_target led),
      flattenFrom_apply (dressesTwo.named_of_target led), sameReached,
      shorter fewer (Nat.lt_succ_self _) inTarget]

end Registry

end EntityMapping
