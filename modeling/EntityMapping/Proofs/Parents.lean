import EntityMapping.Proofs.Rewriting

/-!
Parents of entities when a fragment is laid over one of them. Where references lead alike in two
registries, at schemas that name the same tables and refer to the same, the same parents are found.
The fragment says nothing about tables and parents, and refers to nothing, so every entity keeps its
parent, also the one that gets the fragment.
-/

set_option autoImplicit false
set_option relaxedAutoImplicit false

namespace EntityMapping

open Registry (wrap)

/-- What a keyword says depends on its value alone. -/
theorem KeywordReader.as_congr {α : Type} {form : KeywordForm α} {keyword : String}
    {fields others : Keyed Json} (same : Keyed.get? fields keyword = Keyed.get? others keyword) :
    as (ofFields fields) form keyword = as (ofFields others) form keyword := by
  simp only [as, ofFields, presentValue?, same]

namespace Registry

variable {registry : Registry} {skip wanted : Option String} {hops : Nat} {visited : List String}
  {schema : Json} {fragment : Keyed Json} {keyword : String}

theorem composition_wrap (isFragment : IsFragment fragment) :
    (wrap schema fragment).composition =
      .all [schema.composition, .plain fragment] [("allOf", .arr [schema, .obj fragment])] := by
  have written : Keyed.get? [("allOf", Json.arr [schema, .obj fragment])] "allOf" =
      some (.arr [schema, .obj fragment]) := rfl
  rw [wrap, Json.composition_fragments rfl written, List.map_cons, List.map_cons, List.map_nil,
    Json.composition_plain isFragment.noReference isFragment.noFragments]

/-- What a fragment does not say is looked up on the schema below. -/
theorem effectiveFrom_wrap (isFragment : IsFragment fragment)
    (silent : Keyed.get? fragment keyword = none) (notFragments : keyword ≠ "allOf") :
    registry.effectiveFrom skip keyword hops visited (wrap schema fragment) =
      registry.effectiveFrom skip keyword hops visited schema := by
  have beside : presentValue? [("allOf", Json.arr [schema, .obj fragment])] keyword = none := by
    simp [presentValue?, Keyed.get?_cons, Ne.symm notFragments]
  have above : presentValue? fragment keyword = none := by simp [presentValue?, silent]
  unfold effectiveFrom
  rw [composition_wrap isFragment]
  simp only [Composition.effectiveWith, Composition.firstEffectiveWith, beside, above]
  cases schema.composition.effectiveWith _ keyword with
  | error e => rfl
  | ok value => cases value <;> rfl

theorem references_wrap (isFragment : IsFragment fragment) :
    (wrap schema fragment).composition.references = schema.composition.references := by
  rw [composition_wrap isFragment]
  simp [Composition.references, Composition.allReferences]

theorem searchParent_wrap (isFragment : IsFragment fragment) :
    registry.searchParent wanted hops visited (wrap schema fragment) =
      registry.searchParent wanted hops visited schema := by
  unfold searchParent
  rw [references_wrap isFragment]

/-- The same place on the same chain, at schemas that are related. -/
structure RelatedArrival (related : Json → Json → Prop) (arrival other : Arrival) : Prop where
  name : arrival.name = other.name
  visited : arrival.visited = other.visited
  schema : related arrival.schema other.schema

/-- Whether an entity is the parent is told by its name or its table. -/
theorem RelatedArrival.isParent {one two : Registry} {related : Json → Json → Prop}
    {arrival other : Arrival} (same : RelatedArrival related arrival other)
    (sameTable : two.effective? other.schema "x-tablename" =
      one.effective? arrival.schema "x-tablename") :
    two.isParent wanted other = one.isParent wanted arrival := by
  cases wanted with
  | some name => rw [Registry.isParent, Registry.isParent, same.name]
  | none =>
    simp only [Registry.isParent, KeywordReader.tablename?, KeywordReader.text?, KeywordReader.as,
      Registry.keywords, sameTable]

/-- Two registries in which every reference leads to the same name, at schemas that are related. -/
def LeadAlike (one two : Registry) (related : Json → Json → Prop) : Prop :=
  ∀ text parsed, Alike (fun found other => found.1 = other.1 ∧ related found.2 other.2)
    (one.target text parsed) (two.target text parsed)

namespace LeadAlike

variable {one two : Registry} {related : Json → Json → Prop} (alike : LeadAlike one two related)

include alike

theorem arrive (text : String) (parsed : Reference) :
    Alike (RelatedArrival related) (one.arrive visited text parsed)
      (two.arrive visited text parsed) := by
  unfold Registry.arrive
  split
  · exact .error _
  · exact (alike text parsed).bind fun found other same => .ok ⟨same.1, rfl, same.2⟩

theorem step (target : Json) :
    Alike (Option.Rel fun found other => found.1 = other.1 ∧ RelatedArrival related found.2 other.2)
      (one.step skip visited target) (two.step skip visited target) := by
  refine (Alike.refl _).bind fun text _ sameText => ?_
  subst sameText
  refine (Alike.refl _).bind fun parsed _ sameReference => ?_
  subst sameReference
  split
  · exact .ok .none
  · exact (alike.arrive text parsed).bind fun arrival other same => .ok (.some ⟨rfl, same⟩)

/-- A keyword that related schemas say alike is found alike. -/
theorem effectiveFrom (sayAlike : ∀ {hops visited schema other}, related schema other →
      two.effectiveFrom skip keyword hops visited other =
        two.effectiveFrom skip keyword hops visited schema) :
    two.effectiveFrom skip keyword hops visited schema =
      one.effectiveFrom skip keyword hops visited schema := by
  induction hops using Nat.strongRecOn generalizing visited schema with
  | ind hops shorter =>
  unfold Registry.effectiveFrom
  congr 1
  funext target
  refine (Alike.eq ?_).symm
  refine (alike.step target).bind fun found other same => ?_
  cases same with
  | none => exact .refl _
  | @some found other same =>
    obtain ⟨text, arrival⟩ := found
    obtain ⟨_, other⟩ := other
    obtain ⟨rfl, sameArrival⟩ := same
    cases hops with
    | zero => exact .error _
    | succ fewer =>
      dsimp only
      rw [← sameArrival.visited, sayAlike sameArrival.schema, shorter fewer (by omega)]
      exact .refl _

/-- Where related schemas have the same table and refer to the same, the same parent is found. -/
theorem searchParent (sameTable : ∀ {schema other}, related schema other →
      two.effective? other "x-tablename" = one.effective? schema "x-tablename")
    (referAlike : ∀ {hops visited schema other}, related schema other →
      two.searchParent wanted hops visited other = two.searchParent wanted hops visited schema) :
    two.searchParent wanted hops visited schema = one.searchParent wanted hops visited schema := by
  induction hops using Nat.strongRecOn generalizing visited schema with
  | ind hops shorter =>
  unfold Registry.searchParent
  congr 1
  funext reference
  refine (Alike.eq ?_).symm
  refine (Alike.refl _).bind fun parsed _ sameReference => ?_
  subst sameReference
  refine (alike.arrive reference parsed).bind fun arrival other same => ?_
  rw [same.isParent (sameTable same.schema)]
  refine (Alike.refl _).bind fun isParent _ sameAnswer => ?_
  subst sameAnswer
  split
  · rw [same.name]
    exact .refl _
  · cases hops with
    | zero => exact .error _
    | succ fewer =>
      dsimp only
      rw [← same.visited, referAlike same.schema, shorter fewer (by omega)]
      exact .refl _

end LeadAlike

end Registry

namespace Rewriting

variable {rewriting : Rewriting} {skip wanted : Option String} {hops : Nat}
  {visited : List String} {name : String} {schema after : Json} {keyword : String}

theorem leadAlike : Registry.LeadAlike rewriting.registry rewriting.changed rewriting.Rewritten :=
  target_alike

theorem effectiveFrom_rewritten (silent : Keyed.get? rewriting.fragment keyword = none)
    (notFragments : keyword ≠ "allOf") (rewritten : rewriting.Rewritten schema after) :
    rewriting.changed.effectiveFrom skip keyword hops visited after =
      rewriting.changed.effectiveFrom skip keyword hops visited schema := by
  rcases rewritten with rfl | ⟨rfl, rfl⟩
  · rfl
  · exact Registry.effectiveFrom_wrap rewriting.isFragment silent notFragments

theorem searchParent_rewritten (rewritten : rewriting.Rewritten schema after) :
    rewriting.changed.searchParent wanted hops visited after =
      rewriting.changed.searchParent wanted hops visited schema := by
  rcases rewritten with rfl | ⟨rfl, rfl⟩
  · rfl
  · exact Registry.searchParent_wrap rewriting.isFragment

/-- Keywords that the fragment does not say are found as before. -/
theorem effective?_changed (silent : Keyed.get? rewriting.fragment keyword = none)
    (notFragments : keyword ≠ "allOf") (rewritten : rewriting.Rewritten schema after) :
    rewriting.changed.effective? after keyword = rewriting.registry.effective? schema keyword := by
  unfold Registry.effective? Registry.effectiveWithout?
  rw [chainLimit_changed, effectiveFrom_rewritten silent notFragments rewritten,
    leadAlike.effectiveFrom (effectiveFrom_rewritten silent notFragments)]

theorem searchParent_changed (rewritten : rewriting.Rewritten schema after) :
    rewriting.changed.searchParent wanted hops visited after =
      rewriting.registry.searchParent wanted hops visited schema := by
  rw [searchParent_rewritten rewritten]
  exact leadAlike.searchParent (effective?_changed rewriting.noTable (by decide))
    searchParent_rewritten

/-- Every entity keeps its parent. -/
theorem parent?_changed (whole : schema.isWellKeyed = true)
    (rewritten : rewriting.Rewritten schema after) :
    rewriting.changed.parent? name after = rewriting.registry.parent? name schema := by
  refine (Alike.eq ?_).symm
  unfold Registry.parent?
  have flat : Alike (fun flat other => Related "x-inherits" (· = ·) flat.fields other.fields)
      (rewriting.registry.flatten name schema) (rewriting.changed.flatten name after) :=
    (carries_of_silent rewriting.noParent (by decide) whole).flattenWithout rewritten
  have search : ∀ wanted, rewriting.changed.searchParent wanted rewriting.changed.chainLimit []
      after = rewriting.registry.searchParent wanted rewriting.registry.chainLimit [] schema := by
    intro wanted
    rw [chainLimit_changed, searchParent_changed rewritten]
  refine flat.bind fun flat other same => ?_
  have sameWord : flat.keywords.inherits? = other.keywords.inherits? :=
    KeywordReader.as_congr same.2.2
  simp only [sameWord, search]
  exact .refl _

/-- What belongs to an entity itself is found alike in both registries, with the same parent. -/
theorem ownSchema_alike {related : Option Json → Option Json → Prop}
    (carries : ∀ skip, rewriting.Carries skip schema keyword related)
    (whole : schema.isWellKeyed = true) (rewritten : rewriting.Rewritten schema after) :
    Alike (fun own other => own.parent = other.parent ∧
        Related keyword related own.fields other.fields)
      (rewriting.registry.ownSchema name schema) (rewriting.changed.ownSchema name after) := by
  unfold Registry.ownSchema
  rw [parent?_changed whole rewritten]
  refine (Alike.refl _).bind fun parent _ sameParent => ?_
  subst sameParent
  exact ((carries parent).flattenWithout rewritten).bind fun flat other same => .ok ⟨rfl, same⟩

end Rewriting

end EntityMapping
