import EntityMapping.Proofs.SettledMoments

/-!
Keys that agree. Where relationships that need a key column of the same name in the same entity need
the same column, it does not matter which of them adds it. Then it is told from the registry as it
is given whether a key can be ensured, at whatever moment that is.
-/

set_option autoImplicit false
set_option relaxedAutoImplicit false

namespace EntityMapping

open ForeignKey (Requirement)

namespace Registry

variable {registry base next : Registry} {holder property entity : String} {fields : Keyed Json}
  {schema : Json} {key : Column} {relationship : Relationship} {store after : ModelStore}
  {additions more : String → Additions} {requirement : Requirement}

/-- A relationship needs a key column of a name in an entity. -/
def NeedsKey (registry : Registry) (holder property entity : String)
    (relationship : Relationship) : Prop :=
  registry.Relates entity relationship ∧
    relationship.cardinality.needsAssociationTable = false ∧ relationship.holder entity = holder ∧
    ∃ source, registry.keySource (relationship.owning entity) relationship.foreignKeyColumn =
        .ok source ∧ source.property relationship.foreignKeyColumn = property

/-- Keys of the same name in the same entity are the same key. -/
structure KeysAgree (registry : Registry) : Prop where
  /-- Relationships that need a key of the same name in the same entity need the same there. -/
  agreeing : ∀ holder property entity relationship other another,
    registry.NeedsKey holder property entity relationship →
    registry.NeedsKey holder property other another →
    registry.keyOf entity relationship = registry.keyOf other another
  /-- No entity requires a key that is added to it. -/
  notRequired : ∀ holder property fields schema own, registry.AddsKey holder property fields →
    registry.get? holder = some schema → registry.ownSchema holder schema = .ok own →
    property ∉ Compilation.requiredOf own.fields

theorem Relates.needsKey (relates : base.Relates entity relationship)
    (direct : relationship.cardinality.needsAssociationTable = false)
    (required : base.keyOf entity relationship = .ok (.missing property schema key)) :
    base.NeedsKey (relationship.holder entity) property entity relationship := by
  obtain ⟨own, source, -, sourceFound, isProperty, -⟩ := foreignKey_eq_missing.mp required
  exact ⟨relates, direct, rfl, source, sourceFound, isProperty⟩

/-- What a key that is added says is what every relationship that needs it finds missing. -/
theorem KeysAgree.keyOf_of_addsKey (agree : base.KeysAgree)
    (adds : base.AddsKey holder property fields)
    (needs : base.NeedsKey holder property entity relationship) :
    ∃ key, base.keyOf entity relationship = .ok (.missing property (.obj fields) key) := by
  obtain ⟨other, another, key, relates, direct, rfl, required⟩ := adds
  have needsToo := relates.needsKey direct required
  exact ⟨key, (agree.agreeing _ _ _ _ _ _ needs needsToo).trans required⟩

theorem KeysAgree.addsKey_unique (agree : base.KeysAgree) {others : Keyed Json}
    (adds : base.AddsKey holder property fields) (addsToo : base.AddsKey holder property others) :
    fields = others := by
  obtain ⟨other, another, key, relates, direct, rfl, required⟩ := addsToo
  obtain ⟨_, requiredToo⟩ := agree.keyOf_of_addsKey adds (relates.needsKey direct required)
  obtain ⟨-, same, -⟩ :=
    Requirement.missing.inj (Except.ok.inj (requiredToo.symm.trans required))
  exact Json.obj.inj same

/-- Without added keys, what is needed is what the registry as it is given says. -/
theorem requirement_nil (registry : Registry) (target owning column : String)
    (nullable : Option Bool) : registry.requirement [] target owning column nullable =
      registry.foreignKey target owning column nullable := by
  rw [foreignKey_eq, requirement]
  rfl

/-- A key that can be ensured once the holder has got others could be ensured before. -/
theorem KeysAgree.exists_keyOf (agree : base.KeysAgree) {keys : Keyed (Keyed Json)}
    (relates : base.Relates entity relationship)
    (direct : relationship.cardinality.needsAssociationTable = false)
    (added : ∀ key ∈ keys, base.AddsKey (relationship.holder entity) key.1 key.2)
    (required : base.requirement keys (relationship.holder entity) (relationship.owning entity)
      relationship.foreignKeyColumn relationship.keyNullable = .ok requirement) :
    ∃ requirement, base.keyOf entity relationship = .ok requirement := by
  obtain ⟨own, ownFound, rest⟩ := bind_eq_ok.mp required
  obtain ⟨source, sourceFound, rest⟩ := bind_eq_ok.mp rest
  dsimp only at rest
  cases found : Keyed.get? keys (source.property relationship.foreignKeyColumn) with
  | some fields =>
    have adds := added _ (Keyed.mem_of_get? found)
    have needs : base.NeedsKey _ (source.property relationship.foreignKeyColumn) entity
        relationship := ⟨relates, direct, rfl, source, sourceFound, rfl⟩
    obtain ⟨key, isMissing⟩ := agree.keyOf_of_addsKey adds needs
    exact ⟨_, isMissing⟩
  | none =>
    rw [found] at rest
    refine ⟨requirement, ?_⟩
    rw [keyOf, ← requirement_nil, Registry.requirement, ownFound, ok_bind, sourceFound, ok_bind]
    exact rest

namespace Moment

variable (moment : base.Moment additions registry) (keyed : base.WellKeyed)
  (settled : base.KeysSettled) (agree : base.KeysAgree)
  (relates : base.Relates entity relationship)

include moment keyed settled relates

theorem keyOf_satisfied (required : base.keyOf entity relationship = .ok (.satisfied property)) :
    registry.keyOf entity relationship = .ok (.satisfied property) := by
  rw [moment.keyOf keyed settled relates]
  rw [Registry.keyOf, ← requirement_nil] at required
  exact requirement_of_more required (by simp) (moment.fresh settled _)

include agree in
/-- A key that is missing as the registry is given is there at a moment if it has been written, and
otherwise it is still missing. -/
theorem keyOf_missing (direct : relationship.cardinality.needsAssociationTable = false)
    (required : base.keyOf entity relationship = .ok (.missing property (.obj fields) key)) :
    registry.keyOf entity relationship = .ok (.satisfied property) ∧
        property ∈ Keyed.keys (additions (relationship.holder entity)).keys ∨
      registry.keyOf entity relationship = .ok (.missing property (.obj fields) key) := by
  rw [moment.keyOf keyed settled relates]
  cases found : Keyed.get? (additions (relationship.holder entity)).keys property with
  | none => exact .inr (requirement_of_missing required found)
  | some others =>
    have adds := moment.admits.keys _ _ (Keyed.mem_of_get? found)
    obtain ⟨_, requiredToo⟩ := agree.keyOf_of_addsKey adds (relates.needsKey direct required)
    obtain ⟨-, same, -⟩ :=
      Requirement.missing.inj (Except.ok.inj (requiredToo.symm.trans required))
    obtain rfl := Json.obj.inj same
    exact .inl ⟨requirement_of_added required found, Keyed.mem_keys_of_get? found⟩

include agree in
/-- Whether a key can be ensured is told from the registry as it is given. -/
theorem exists_keyOf_iff (direct : relationship.cardinality.needsAssociationTable = false) :
    (∃ requirement, registry.keyOf entity relationship = .ok requirement) ↔
      ∃ requirement, base.keyOf entity relationship = .ok requirement := by
  constructor
  · rintro ⟨requirement, required⟩
    rw [moment.keyOf keyed settled relates] at required
    exact agree.exists_keyOf relates direct (moment.admits.keys _) required
  · rintro ⟨requirement, required⟩
    cases requirement with
    | satisfied property => exact ⟨_, moment.keyOf_satisfied keyed settled relates required⟩
    | missing property schema key =>
      obtain ⟨fields, rfl, -⟩ := relates.addsKey direct required
      rcases moment.keyOf_missing keyed settled agree relates direct required with ⟨isThere, -⟩ |
        stillMissing
      · exact ⟨_, isThere⟩
      · exact ⟨_, stillMissing⟩

include agree in
/-- A key can be ensured at every moment if it can be as the registry is given. -/
theorem exists_ensureForeignKey
    (direct : relationship.cardinality.needsAssociationTable = false)
    (required : base.keyOf entity relationship = .ok requirement) (store : ModelStore) :
    ∃ next after, registry.ensureForeignKey store (relationship.holder entity)
      (relationship.owning entity) relationship.foreignKeyColumn relationship.keyNullable =
        .ok (next, after) := by
  obtain ⟨needed, requiredHere⟩ :=
    (moment.exists_keyOf_iff keyed settled agree relates direct).mpr ⟨requirement, required⟩
  exact Registry.exists_ensureForeignKey store requiredHere

end Moment

/-- A key that was missing as the registry is given is there once it has been ensured. -/
theorem EnsuresAt.keyThere
    (ensures : base.EnsuresAt entity relationship additions registry store more next after)
    (moment : base.Moment additions registry) (keyed : base.WellKeyed) (settled : base.KeysSettled)
    (agree : base.KeysAgree) (relates : base.Relates entity relationship)
    (direct : relationship.cardinality.needsAssociationTable = false)
    (required : base.keyOf entity relationship = .ok (.missing property schema key)) :
    KeyThere more after (relationship.holder entity) property := by
  obtain ⟨fields, rfl, -⟩ := relates.addsKey direct required
  have asGiven := moment.keyOf_missing keyed settled agree relates direct required
  have sameName : ∀ {other : String} {schema : Json} {column : Column},
      registry.keyOf entity relationship = .ok (.missing other schema column) →
      other = property := by
    intro other schema column missing
    rcases asGiven with ⟨isThere, -⟩ | stillMissing
    · cases isThere.symm.trans missing
    · exact (Requirement.missing.inj (Except.ok.inj (missing.symm.trans stillMissing))).1
  cases ensures with
  | there isThere =>
    rcases asGiven with ⟨-, written⟩ | stillMissing
    · exact .inl written
    · cases isThere.symm.trans stillMissing
  | taken missing _ has =>
    obtain rfl := sameName missing
    exact .inr has
  | attached missing _ _ isBuilt _ =>
    obtain rfl := sameName missing
    exact .inr (ModelStore.hasProperty_attach isBuilt _ _ _)
  | written missing _ _ _ _ keys =>
    obtain ⟨rfl, -, -⟩ := Requirement.missing.inj (Except.ok.inj (missing.symm.trans required))
    refine .inl ?_
    rw [keys, Keyed.keys, List.map_append]
    exact List.mem_append_right _ (List.mem_singleton_self _)

end Registry

end EntityMapping
