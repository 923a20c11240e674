import EntityMapping.Proofs.ImpliedBackrefs

/-!
Registries whose entities are listed in another order. The same is found under every name, so
schemas amount to the same and entities imply the same. Values are compared whatever the order of
their keys; a value whose objects have pairwise different keys is the same value as itself.
-/

set_option autoImplicit false
set_option relaxedAutoImplicit false

namespace EntityMapping

open Keyed (Distinct)

namespace Keyed

variable {α : Type} {fields others : Keyed α}

theorem get?_perm (distinct : Distinct fields) (perm : fields.Perm others) (key : String) :
    get? others key = get? fields key := by
  have distinctToo : Distinct others := (perm.map Prod.fst).nodup_iff.mp distinct
  cases found : get? fields key with
  | some value => exact get?_of_mem distinctToo (perm.mem_iff.mp (mem_of_get? found))
  | none =>
    rw [get?_eq_none_iff] at found ⊢
    exact fun member => found ((perm.map Prod.fst).mem_iff.mpr member)

theorem length_eq_of_get? (distinct : Distinct fields) (distinctToo : Distinct others)
    (same : ∀ key, get? fields key = get? others key) : fields.length = others.length := by
  have keysToo : ∀ key, key ∈ keys fields ↔ key ∈ keys others := by
    intro key
    rw [← not_iff_not, ← get?_eq_none_iff, ← get?_eq_none_iff, same]
  have perm := (List.perm_ext_iff_of_nodup distinct distinctToo).mpr keysToo
  simpa [keys] using perm.length_eq

end Keyed

namespace Json

theorem sameFields_iff {fields : List (String × Json)} {others : Keyed Json} :
    sameFields fields others = true ↔ ∀ field ∈ fields, ∃ value,
      Keyed.get? others field.1 = some value ∧ sameValue field.2 value = true := by
  induction fields with
  | nil => simp [sameFields]
  | cons field rest ih =>
    obtain ⟨key, value⟩ := field
    rw [sameFields, Bool.and_eq_true, ih, List.forall_mem_cons]
    cases Keyed.get? others key <;> simp

mutual

theorem sameValue_self : ∀ value : Json, value.isWellKeyed = true → value.sameValue value = true
  | .null, _ => rfl
  | .bool b, _ => by simp [sameValue]
  | .int i, _ => by simp [sameValue]
  | .float f, _ => by simp [sameValue, Binary64.sameValue]
  | .str s, _ => by simp [sameValue]
  | .arr items, whole => by
    rw [sameValue]
    exact sameItems_self items ((isWellKeyed_arr items).mp whole)
  | .obj fields, whole => by
    obtain ⟨distinct, values⟩ := (isWellKeyed_obj fields).mp whole
    have each := sameFields_self fields values
    rw [sameValue, Bool.and_eq_true, sameFields_iff]
    exact ⟨beq_self_eq_true _, fun field member =>
      ⟨field.2, Keyed.get?_of_mem distinct member, each field member⟩⟩

theorem sameItems_self : ∀ items : List Json, (∀ item ∈ items, item.isWellKeyed = true) →
    sameItems items items = true
  | [], _ => rfl
  | item :: rest, whole => by
    rw [sameItems, Bool.and_eq_true]
    exact ⟨sameValue_self item (whole item List.mem_cons_self),
      sameItems_self rest fun other member => whole other (List.mem_cons_of_mem _ member)⟩

theorem sameFields_self : ∀ fields : List (String × Json),
    (∀ field ∈ fields, field.2.isWellKeyed = true) →
    ∀ field ∈ fields, field.2.sameValue field.2 = true
  | [], _ => by simp
  | (key, value) :: rest, whole => by
    intro field member
    rcases List.mem_cons.mp member with rfl | later
    · exact sameValue_self value (whole _ List.mem_cons_self)
    · exact sameFields_self rest (fun other inRest => whole other (List.mem_cons_of_mem _ inRest))
        field later

end

end Json

namespace Registry

variable {base other dressed : Registry} {additions : String → Additions} {name : String}
  {schema part : Json}

/-- The same entities in another order. -/
structure Reorders (base other : Registry) : Prop where
  entries : base.entries.Perm other.entries
  place : other.place = base.place
  documents : other.documents = base.documents

namespace Reorders

theorem symm (reorders : base.Reorders other) : other.Reorders base :=
  ⟨reorders.entries.symm, reorders.place.symm, reorders.documents.symm⟩

theorem get? (reorders : base.Reorders other) (keyed : base.WellKeyed) (name : String) :
    other.get? name = base.get? name :=
  Keyed.get?_perm keyed.entries reorders.entries name

theorem wellKeyed (reorders : base.Reorders other) (keyed : base.WellKeyed) : other.WellKeyed where
  entries := (reorders.entries.map Prod.fst).nodup_iff.mp keyed.entries
  schemas entry member := keyed.schemas entry (reorders.entries.mem_iff.mpr member)
  documents := reorders.documents ▸ keyed.documents

theorem refersLocally (reorders : base.Reorders other) (references : base.RefersLocally) :
    other.RefersLocally := fun entry member =>
  references entry (reorders.entries.mem_iff.mpr member)

/-- A registry in another order is one without additions. -/
theorem dresses (reorders : base.Reorders other) (keyed : base.WellKeyed) :
    base.Dresses (fun _ => .nothing) other where
  get? name := by
    rw [reorders.get? keyed]
    cases base.get? name <;> rfl
  place := reorders.place
  documents := reorders.documents
  length := reorders.entries.length_eq.symm
  named _ _ _ := .inl rfl

theorem dresses_of (reorders : base.Reorders other) (keyed : base.WellKeyed)
    (dresses : other.Dresses additions dressed) : base.Dresses additions dressed where
  get? name := by rw [dresses.get?, reorders.get? keyed]
  place := dresses.place.trans reorders.place
  documents := dresses.documents.trans reorders.documents
  length := dresses.length.trans reorders.entries.length_eq.symm
  named name schema registered := dresses.named name schema ((reorders.get? keyed name).trans registered)

theorem target (reorders : base.Reorders other) (keyed : base.WellKeyed) :
    other.target = base.target := by
  funext text parsed
  rw [(reorders.dresses keyed).target]
  cases parsed <;> cases base.target text _ <;> rfl

theorem composes (reorders : base.Reorders other) (keyed : base.WellKeyed)
    (parts : base.Composes schema part) : other.Composes schema part := by
  induction parts with
  | self => exact .self _
  | fragment noReference written member _ ih => exact .fragment noReference written member ih
  | reference reference parse led _ ih =>
    exact .reference reference parse (by rw [reorders.target keyed]; exact led) ih

theorem reachesEntity (reorders : base.Reorders other) (keyed : base.WellKeyed)
    (reaches : base.ReachesEntity schema name) : other.ReachesEntity schema name := by
  obtain ⟨text, ⟨own, parts, reference⟩, parse⟩ := reaches
  exact ⟨text, ⟨own, reorders.composes keyed parts, reference⟩, parse⟩

theorem entityBackrefs (reorders : base.Reorders other) (keyed : base.WellKeyed)
    (registered : base.get? name = some schema) :
    other.entityBackrefs name schema = base.entityBackrefs name schema :=
  (reorders.dresses keyed).entityBackrefs keyed (fun _ _ _ notEmpty => absurd rfl notEmpty)
    (.of_nil fun _ => rfl) registered

theorem implies (reorders : base.Reorders other) (keyed : base.WellKeyed) {model property : String}
    (implied : base.Implies model property schema) : other.Implies model property schema := by
  obtain ⟨entity, registered, entries, found, member⟩ := implied
  refine ⟨entity, reorders.entries.mem_iff.mp registered, entries, ?_, member⟩
  rw [reorders.entityBackrefs keyed (Keyed.get?_of_mem keyed.entries registered)]
  exact found

/-- What is implied can be grouped in both orders or in none, and the groups have the same. -/
theorem backrefGroups (reorders : base.Reorders other) (keyed : base.WellKeyed)
    {groups : BackrefGroups} (found : base.backrefGroups = .ok groups) :
    ∃ others, other.backrefGroups = .ok others ∧
      ∀ model property, others.reverse? model property = groups.reverse? model property := by
  have keyedToo := reorders.wellKeyed keyed
  have groupsOf := groupsOf_of_backrefGroups found
  obtain ⟨others, foundToo⟩ : ∃ others, other.backrefGroups = .ok others := by
    refine exists_backrefGroups (fun entity registered => ?_)
      fun model property schema another implied impliedToo => ?_
    · have inBase := reorders.entries.mem_iff.mpr registered
      rw [reorders.entityBackrefs keyed (Keyed.get?_of_mem keyed.entries inBase)]
      exact groupsOf.entities entity inBase
    · have one := (groupsOf.reverses _ _ _).mpr (reorders.symm.implies keyedToo implied)
      have two := (groupsOf.reverses _ _ _).mpr (reorders.symm.implies keyedToo impliedToo)
      exact Option.some.inj (one.symm.trans two)
  have groupsOfToo := groupsOf_of_backrefGroups foundToo
  refine ⟨others, foundToo, fun model property => Option.ext fun schema => ?_⟩
  rw [groupsOfToo.reverses, groupsOf.reverses]
  exact ⟨reorders.symm.implies keyedToo, reorders.implies keyed⟩

end Reorders

end Registry

end EntityMapping
