import Mathlib.Data.List.Induction
import EntityMapping.Proofs.Keyed
import EntityMapping.Schema.Composition

/-!
Lookups in merged fragments. Laying a fragment over keywords decides every keyword by itself, so
the value of a keyword after a merge depends on the values of that keyword in the fragments alone.
-/

set_option autoImplicit false
set_option relaxedAutoImplicit false

namespace EntityMapping

open Keyed (Distinct)

theorem layOver_eq_joinAll (laid fragment : Keyed Json) :
    layOver laid fragment = Keyed.joinAll joinValues laid fragment := rfl

theorem distinct_layOver {laid : Keyed Json} (distinct : Distinct laid) (fragment : Keyed Json) :
    Distinct (layOver laid fragment) :=
  Keyed.distinct_joinAll distinct fragment

theorem mergeFragments_append (fragments : List (Keyed Json)) (last : Keyed Json) :
    mergeFragments (fragments ++ [last]) = layOver (mergeFragments fragments) last := by
  simp [mergeFragments, List.foldl_append]

theorem distinct_mergeFragments (fragments : List (Keyed Json)) :
    Distinct (mergeFragments fragments) := by
  induction fragments using List.reverseRecOn with
  | nil => exact Keyed.distinct_nil
  | append_singleton before last ih =>
    rw [mergeFragments_append]
    exact distinct_layOver ih last

@[simp] theorem layOver_nil (laid : Keyed Json) : layOver laid [] = laid := rfl

theorem mem_of_mem_joinItems {value : Json} {existing incoming : List Json}
    (member : value ∈ joinItems existing incoming) : value ∈ existing ∨ value ∈ incoming := by
  induction incoming generalizing existing with
  | nil => exact .inl member
  | cons item rest ih =>
    rcases ih member with before | later
    · dsimp only at before
      split at before
      · exact .inl before
      · rcases List.mem_append.mp before with inExisting | last
        · exact .inl inExisting
        · exact .inr (List.mem_singleton.mp last ▸ List.mem_cons_self)
    · exact .inr (List.mem_cons_of_mem _ later)

theorem joinValues_none (keyword : String) (value : Json) :
    joinValues keyword none value = value := by
  unfold joinValues
  cases Joining.ofKeyword keyword <;> rfl

/-- The value of a keyword after a fragment, given its value before and on the fragment. -/
def laidValue (keyword : String) (before : Option Json) : Option Json → Option Json
  | some incoming => some (joinValues keyword before incoming)
  | none => before

theorem get?_layOver (laid : Keyed Json) {fragment : Keyed Json} (distinct : Distinct fragment)
    (keyword : String) : Keyed.get? (layOver laid fragment) keyword =
      laidValue keyword (Keyed.get? laid keyword) (Keyed.get? fragment keyword) := by
  rw [layOver_eq_joinAll, Keyed.get?_joinAll laid distinct]
  cases Keyed.get? fragment keyword <;> rfl

/-- A correspondence between the values of a keyword that outlasts laying fragments over each other
outlasts merging them. -/
theorem related_mergeFragments {keyword : String} {related : Option Json → Option Json → Prop}
    (absent : related none none)
    (laid : ∀ {before before' value value' : Option Json}, related before before' →
      related value value' →
      related (laidValue keyword before value) (laidValue keyword before' value'))
    {flats others : List (Keyed Json)}
    (each : List.Forall₂ (fun flat other => Distinct flat ∧ Distinct other ∧
      related (Keyed.get? flat keyword) (Keyed.get? other keyword)) flats others) :
    related (Keyed.get? (mergeFragments flats) keyword)
      (Keyed.get? (mergeFragments others) keyword) := by
  have folded : ∀ {below below' : Keyed Json},
      related (Keyed.get? below keyword) (Keyed.get? below' keyword) →
      related (Keyed.get? (flats.foldl layOver below) keyword)
        (Keyed.get? (others.foldl layOver below') keyword) := by
    induction each with
    | nil => exact id
    | cons here _ ih =>
      intro below below' before
      refine ih ?_
      rw [get?_layOver _ here.1, get?_layOver _ here.2.1]
      exact laid before here.2.2
  exact folded absent

/-- A keyword that is not joined has its last value. -/
theorem laidValue_replace {keyword : String} (joining : Joining.ofKeyword keyword = .replace)
    (before incoming : Option Json) :
    laidValue keyword before incoming = incoming.or before := by
  cases incoming <;> simp [laidValue, joinValues, joining]

/-- Properties over what was there before: joined to an object, in the place of anything else. -/
def propertiesOver (new : Keyed Json) : Option Json → Keyed Json
  | some (.obj old) => Keyed.setAll old new
  | _ => new

theorem propertiesOver_obj (new old : Keyed Json) :
    propertiesOver new (some (.obj old)) = Keyed.setAll old new := rfl

theorem propertiesOver_none (new : Keyed Json) : propertiesOver new none = new := rfl

theorem propertiesOver_of_not_obj (new : Keyed Json) {value : Json}
    (malformed : value.fields? = none) : propertiesOver new (some value) = new := by
  cases value <;> first | rfl | cases malformed

theorem laidValue_properties_obj (before : Option Json) (new : Keyed Json) :
    laidValue "properties" before (some (.obj new)) =
      some (.obj (propertiesOver new before)) := by
  have joining : Joining.ofKeyword "properties" = .byKey := by decide
  cases before with
  | none => simp [laidValue, joinValues, joining, propertiesOver]
  | some value => cases value <;> simp [laidValue, joinValues, joining, propertiesOver]

/-- Properties that are no object take the place of what was there before. -/
theorem laidValue_properties_of_not_obj (before : Option Json) {incoming : Json}
    (malformed : incoming.fields? = none) :
    laidValue "properties" before (some incoming) = some incoming := by
  have joining : Joining.ofKeyword "properties" = .byKey := by decide
  cases incoming <;> simp_all [laidValue, joinValues, Json.fields?]

end EntityMapping
