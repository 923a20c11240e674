import EntityMapping.Proofs.WellKeyed
import EntityMapping.Proofs.Wrapping

/-!
Registries in which a fragment is laid over the schema of one entity. Every schema is flattened in
both registries alike: with the same error, or to flat schemas whose keywords correspond. How the
values of a keyword correspond is left open; it has to outlast laying fragments over each other, and
to hold of the entity itself.
-/

set_option autoImplicit false
set_option relaxedAutoImplicit false

namespace EntityMapping

open Keyed (Distinct)
open Registry (wrap)

/-- An entity of a registry with a fragment to lay over its schema, which says nothing about tables
and parents. -/
structure Rewriting where
  registry : Registry
  entity : String
  schema : Json
  fragment : Keyed Json
  keyed : registry.WellKeyed
  registered : registry.get? entity = some schema
  isFragment : IsFragment fragment
  fragmentKeyed : (Json.obj fragment).isWellKeyed = true
  noTable : Keyed.get? fragment "x-tablename" = none
  noParent : Keyed.get? fragment "x-inherits" = none

namespace Rewriting

/-- The registry with the fragment laid over the entity's schema. -/
def changed (rewriting : Rewriting) : Registry :=
  rewriting.registry.insert rewriting.entity (wrap rewriting.schema rewriting.fragment)

/-- A schema stays, or is the entity's and gets the fragment. -/
def Rewritten (rewriting : Rewriting) (before after : Json) : Prop :=
  after = before ∨
    before = rewriting.schema ∧ after = wrap rewriting.schema rewriting.fragment

variable {rewriting : Rewriting} {skip : Option String}

theorem get?_changed (name : String) : rewriting.changed.get? name =
    if name = rewriting.entity then some (wrap rewriting.schema rewriting.fragment)
    else rewriting.registry.get? name :=
  Keyed.get?_set _ _ _ _

theorem get?_entity : rewriting.changed.get? rewriting.entity =
    some (wrap rewriting.schema rewriting.fragment) := by
  rw [get?_changed, if_pos rfl]

theorem keyed_changed : rewriting.changed.WellKeyed :=
  rewriting.keyed.insert _ (Registry.isWellKeyed_wrap (rewriting.keyed.of_get? rewriting.registered)
    rewriting.fragmentKeyed)

theorem chainLimit_changed : rewriting.changed.chainLimit = rewriting.registry.chainLimit := by
  have sameLength : rewriting.changed.entries.length = rewriting.registry.entries.length :=
    Keyed.length_set _ _ (Keyed.mem_keys_of_get? rewriting.registered)
  simp only [Registry.chainLimit, sameLength]
  rfl

/-- An entity is registered in both registries or in none. -/
theorem registered_alike (name : String) :
    Alike rewriting.Rewritten (rewriting.registry.registered name)
      (rewriting.changed.registered name) := by
  unfold Registry.registered
  rw [get?_changed]
  by_cases same : name = rewriting.entity
  · rw [if_pos same, same, rewriting.registered]
    exact .ok (.inr ⟨rfl, rfl⟩)
  · rw [if_neg same]
    cases rewriting.registry.get? name with
    | none => exact .error _
    | some schema => exact .ok (.inl rfl)

/-- A reference leads to the same place in both registries. -/
theorem target_alike (text : String) (parsed : Reference) :
    Alike (fun found other => found.1 = other.1 ∧ rewriting.Rewritten found.2 other.2)
      (rewriting.registry.target text parsed) (rewriting.changed.target text parsed) := by
  cases parsed with
  | remote document pointer =>
    have same : rewriting.changed.target text (.remote document pointer) =
        rewriting.registry.target text (.remote document pointer) := rfl
    rw [same]
    refine (Alike.refl _).mono ?_
    rintro found _ rfl
    exact ⟨rfl, .inl rfl⟩
  | entity name =>
    unfold Registry.target
    simp only [get?_changed]
    by_cases same : name = rewriting.entity
    · simp only [same, if_true, rewriting.registered]
      exact .ok ⟨rfl, .inr ⟨rfl, rfl⟩⟩
    · simp only [same, if_false]
      cases rewriting.registry.get? name with
      | none => exact .error _
      | some schema => exact .ok ⟨rfl, .inl rfl⟩

/-- The values of a keyword of two flat schemas with different keywords correspond. -/
def Related (keyword : String) (related : Option Json → Option Json → Prop)
    (flat other : Keyed Json) : Prop :=
  Distinct flat ∧ Distinct other ∧ related (Keyed.get? flat keyword) (Keyed.get? other keyword)

/-- A correspondence between the values of a keyword that flattening carries from one registry to
the other, in the parts that a schema is composed of. -/
structure Carries (rewriting : Rewriting) (skip : Option String) (top : Json) (keyword : String)
    (related : Option Json → Option Json → Prop) : Prop where
  notFragments : keyword ≠ "allOf"
  absent : related none none
  written : ∀ own, rewriting.registry.Composes top (.obj own) →
    Distinct own ∧ related (Keyed.get? own keyword) (Keyed.get? own keyword)
  laid : ∀ {before before' value value' : Option Json}, related before before' →
    related value value' → related (laidValue keyword before value)
      (laidValue keyword before' value')
  added : ∀ flat value, rewriting.registry.Composes top rewriting.schema →
    rewriting.registry.Derives skip rewriting.schema flat →
    related (Keyed.get? flat keyword) value → related (Keyed.get? flat keyword)
      (laidValue keyword value (Keyed.get? rewriting.fragment keyword))

variable {top schema : Json} {keyword : String} {related : Option Json → Option Json → Prop}
  {hops : Nat} {visited : List String} {name : String}

theorem Carries.layOver (carries : rewriting.Carries skip top keyword related)
    {laid laid' flat flat' : Keyed Json} (below : Related keyword related laid laid')
    (above : Related keyword related flat flat') :
    Related keyword related (layOver laid flat) (layOver laid' flat') := by
  refine ⟨distinct_layOver below.1 _, distinct_layOver below.2.1 _, ?_⟩
  rw [get?_layOver _ above.1, get?_layOver _ above.2.1]
  exact carries.laid below.2.2 above.2.2

theorem Carries.mergeFragments (carries : rewriting.Carries skip top keyword related)
    {flats others : List (Keyed Json)}
    (each : List.Forall₂ (Related keyword related) flats others) :
    Related keyword related (mergeFragments flats) (mergeFragments others) :=
  ⟨distinct_mergeFragments flats, distinct_mergeFragments others,
    related_mergeFragments carries.absent carries.laid each⟩

/-- A schema of the entity with the fragment on top is flattened as the schema below is. -/
theorem Carries.added_overlaid (carries : rewriting.Carries skip top keyword related)
    (parts : rewriting.registry.Composes top rewriting.schema)
    {found other : FlatSchema}
    (flattened : rewriting.registry.flattenFrom skip hops visited name rewriting.schema = .ok found)
    (below : Related keyword related found.fields other.fields) :
    Related keyword related found.fields (overlaid other.fields rewriting.fragment) := by
  refine ⟨below.1, distinct_overlaid _ _, ?_⟩
  rw [get?_overlaid below.2.1 rewriting.isFragment]
  exact carries.added _ _ parts (Registry.derives_of_flattenFrom flattened) below.2.2

/-- Flattening is alike in both registries, for a schema that stays and for one that is the
entity's. -/
theorem Carries.rewritten (carries : rewriting.Carries skip top keyword related)
    {after : Json}
    (parts : schema = rewriting.schema → rewriting.registry.Composes top rewriting.schema)
    (rewritten : rewriting.Rewritten schema after)
    (stays : Alike (fun flat other => Related keyword related flat.fields other.fields)
      (rewriting.registry.flattenFrom skip hops visited name schema)
      (rewriting.changed.flattenFrom skip hops visited name schema)) :
    Alike (fun flat other => Related keyword related flat.fields other.fields)
      (rewriting.registry.flattenFrom skip hops visited name schema)
      (rewriting.changed.flattenFrom skip hops visited name after) := by
  rcases rewritten with rfl | ⟨rfl, rfl⟩
  · exact stays
  · rw [Registry.flattenFrom_wrap rewriting.isFragment]
    exact stays.bind_right fun found other flattened below =>
      .ok (carries.added_overlaid (parts rfl) flattened below)

/-- A reference is followed alike in both registries, if schemas behind it are flattened alike. -/
theorem Carries.flattenTarget (carries : rewriting.Carries skip top keyword related)
    {own : Keyed Json} {target : Json} (parts : rewriting.registry.Composes top (.obj own))
    (reference : Keyed.get? own "$ref" = some target)
    (shorter : ∀ fewer < hops, ∀ {visited : List String} {name : String} {schema : Json},
      rewriting.registry.Composes top schema →
      Alike (fun flat other => Related keyword related flat.fields other.fields)
        (rewriting.registry.flattenFrom skip fewer visited name schema)
        (rewriting.changed.flattenFrom skip fewer visited name schema)) :
    Alike (fun flat other => Related keyword related flat.fields other.fields)
      (rewriting.registry.flattenTarget skip hops visited name target)
      (rewriting.changed.flattenTarget skip hops visited name target) := by
  cases read : Reference.read target with
  | error e =>
    rw [Registry.flattenTarget_of_unread read, Registry.flattenTarget_of_unread read]
    exact .error e
  | ok parsed =>
    obtain ⟨text, rfl, parse⟩ := Reference.read_eq_ok.mp read
    rw [Registry.flattenTarget_text, Registry.flattenTarget_text, parse, ok_bind, ok_bind]
    split
    · exact .ok ⟨Keyed.distinct_nil, Keyed.distinct_nil, carries.absent⟩
    split
    · exact .error _
    refine (target_alike text parsed).bind_of_eq fun found other led same => ?_
    obtain ⟨sameName, rewritten⟩ := same
    cases hops with
    | zero => exact .error _
    | succ fewer =>
      have inTarget := parts.trans (.reference reference parse led (.self found.2))
      rw [← sameName]
      exact carries.rewritten (fun same => same ▸ inTarget) rewritten
        (shorter fewer (by omega) inTarget)

/-- Flattening is alike in both registries. -/
theorem Carries.flattenFrom (carries : rewriting.Carries skip top keyword related)
    (parts : rewriting.registry.Composes top schema) :
    Alike (fun flat other => Related keyword related flat.fields other.fields)
      (rewriting.registry.flattenFrom skip hops visited name schema)
      (rewriting.changed.flattenFrom skip hops visited name schema) := by
  induction hops, schema using Json.byFollowing generalizing visited name with
  | notObject hops schema notObject =>
    rw [Registry.flattenFrom_notObject notObject, Registry.flattenFrom_notObject notObject]
    exact .error _
  | plain hops own noReference noFragments =>
    rw [Registry.flattenFrom_plain noReference noFragments,
      Registry.flattenFrom_plain noReference noFragments]
    obtain ⟨distinct, same⟩ := carries.written own parts
    exact .ok ⟨distinct, distinct, same⟩
  | reference hops own target reference shorter =>
    rw [Registry.flattenFrom_reference reference, Registry.flattenFrom_reference reference]
    exact carries.flattenTarget parts reference fun fewer less => shorter fewer less
  | malformed hops own value noReference written noList =>
    rw [Registry.flattenFrom_malformed noReference written noList,
      Registry.flattenFrom_malformed noReference written noList]
    exact .error _
  | fragments hops own items noReference written ih =>
    rw [Registry.flattenFrom_fragments noReference written,
      Registry.flattenFrom_fragments noReference written]
    have each : Alike (List.Forall₂ (Related keyword related))
        (items.mapM fun item => (rewriting.registry.flattenFrom skip hops visited name item).map
          FlatSchema.fields)
        (items.mapM fun item => (rewriting.changed.flattenFrom skip hops visited name item).map
          FlatSchema.fields) := by
      refine .mapM fun item member => ?_
      have inItem := parts.trans (.fragment noReference written member (.self item))
      exact (ih item member inItem).map fun _ _ same => same
    refine each.bind fun flats others each => ?_
    · obtain ⟨distinct, same⟩ := carries.written own parts
      have beside : Related keyword related (Keyed.without own "allOf")
          (Keyed.without own "allOf") := by
        refine ⟨Keyed.distinct_without distinct _, Keyed.distinct_without distinct _, ?_⟩
        rw [Keyed.get?_without, if_neg carries.notFragments]
        exact same
      rw [mergeFragments_append, mergeFragments_append]
      exact .ok (carries.layOver (carries.mergeFragments each) beside)

theorem Carries.flattenWithout (carries : rewriting.Carries skip schema keyword related)
    {after : Json} (rewritten : rewriting.Rewritten schema after) :
    Alike (fun flat other => Related keyword related flat.fields other.fields)
      (rewriting.registry.flattenWithout skip name schema)
      (rewriting.changed.flattenWithout skip name after) := by
  unfold Registry.flattenWithout
  rw [chainLimit_changed]
  exact carries.rewritten (fun same => same ▸ .self schema) rewritten
    (carries.flattenFrom (.self schema))

/-- A keyword that the fragment does not say has the same value in both registries. -/
theorem carries_of_silent (silent : Keyed.get? rewriting.fragment keyword = none)
    (notFragments : keyword ≠ "allOf") (whole : top.isWellKeyed = true) :
    rewriting.Carries skip top keyword (· = ·) where
  notFragments := notFragments
  absent := rfl
  written own parts := ⟨rewriting.keyed.distinct whole parts, rfl⟩
  laid below above := by rw [below, above]
  added flat value _ _ same := by rw [silent, same, laidValue]

end Rewriting

end EntityMapping
