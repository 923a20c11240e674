import Mathlib.Data.List.Permutation
import EntityMapping.Proofs.LocalReferences
import EntityMapping.Proofs.WellKeyed

/-!
Effective keywords beside flat schemas. A keyword is looked up from the front, on a schema itself
before its fragments, and the search ends with the first value; flattening lays all fragments over
each other, and the last value wins. Where a schema flattens the search never fails, and where no
two places say the keyword it finds what the flat schema says.
-/

set_option autoImplicit false
set_option relaxedAutoImplicit false

namespace EntityMapping

open Keyed (Distinct)

section Merging

variable {keyword : String} {fragments : List (Keyed Json)}

/-- No two of some fragments have a keyword, be it with null. -/
def Alone (keyword : String) (fragments : List (Keyed Json)) : Prop :=
  fragments.Pairwise fun one other =>
    ¬ (Keyed.contains one keyword = true ∧ Keyed.contains other keyword = true)

theorem get?_eq_none_of_not_contains {fields : Keyed Json}
    (absent : ¬ Keyed.contains fields keyword = true) : Keyed.get? fields keyword = none := by
  rwa [Keyed.contains_iff, ← Keyed.get?_eq_none_iff] at absent

theorem presentValue?_eq_none {fields : Keyed Json}
    (absent : ¬ Keyed.contains fields keyword = true) : presentValue? fields keyword = none := by
  rw [presentValue?, get?_eq_none_of_not_contains absent, Option.filter_none]

theorem contains_of_presentValue? {fields : Keyed Json} {value : Json}
    (present : presentValue? fields keyword = some value) :
    Keyed.contains fields keyword = true := by
  by_contra absent
  cases present.symm.trans (presentValue?_eq_none absent)

/-- A keyword that one fragment has is not joined with anything. -/
theorem Alone.get?_mergeFragments (alone : Alone keyword fragments)
    (distinct : ∀ fragment ∈ fragments, Distinct fragment) :
    Keyed.get? (mergeFragments fragments) keyword =
      fragments.findSome? (Keyed.get? · keyword) := by
  induction fragments using List.reverseRecOn with
  | nil => rfl
  | append_singleton before last ih =>
    obtain ⟨aloneBefore, -, apart⟩ := List.pairwise_append.mp alone
    have earlier := ih aloneBefore fun fragment member => distinct fragment (by simp [member])
    rw [mergeFragments_append, get?_layOver _ (distinct last (by simp)), earlier,
      List.findSome?_append, List.findSome?_singleton]
    cases found : Keyed.get? last keyword with
    | none => rw [Option.or_none, laidValue]
    | some value =>
      have silent : before.findSome? (Keyed.get? · keyword) = none := by
        refine List.findSome?_eq_none_iff.mpr fun fragment member => ?_
        refine get?_eq_none_of_not_contains fun contains => ?_
        exact apart fragment member last (by simp) ⟨contains, by simp [Keyed.contains, found]⟩
      rw [silent, Option.none_or, laidValue, joinValues_none]

/-- So it is enough to look for a value that is not null. -/
theorem Alone.presentValue?_mergeFragments (alone : Alone keyword fragments)
    (distinct : ∀ fragment ∈ fragments, Distinct fragment) :
    presentValue? (mergeFragments fragments) keyword =
      fragments.findSome? (presentValue? · keyword) := by
  rw [presentValue?, alone.get?_mergeFragments distinct]
  clear distinct
  induction fragments with
  | nil => rfl
  | cons first rest ih =>
    obtain ⟨apart, aloneRest⟩ := List.pairwise_cons.mp alone
    rw [List.findSome?_cons, List.findSome?_cons]
    cases found : Keyed.get? first keyword with
    | none => rw [presentValue?, found, ih aloneRest, Option.filter_none]
    | some value =>
      have silent : rest.findSome? (presentValue? · keyword) = none := by
        refine List.findSome?_eq_none_iff.mpr fun fragment member => ?_
        exact presentValue?_eq_none fun contains =>
          apart fragment member ⟨by simp [Keyed.contains, found], contains⟩
      rw [presentValue?, found, silent]
      cases Option.filter (fun value => !value.isNull) (some value) <;> rfl

end Merging

namespace Registry

variable {registry : Registry} {skip : Option String} {hops : Nat} {visited : List String}
  {name keyword : String} {top schema fragment : Json} {found : FlatSchema} {own : Keyed Json}
  {items : List Json} {flats : List (Keyed Json)}

/-- Looking up a keyword never fails where flattening succeeds: it goes no further. -/
theorem exists_effectiveFrom (keyword : String)
    (flattened : registry.flattenFrom skip hops visited name schema = .ok found) :
    ∃ value, registry.effectiveFrom skip keyword hops visited schema = .ok value := by
  induction hops, schema using Json.byFollowing generalizing visited name found with
  | notObject hops schema notObject => simp [flattenFrom_notObject notObject] at flattened
  | plain hops own noReference noFragments =>
    exact ⟨_, effectiveFrom_plain noReference noFragments⟩
  | reference hops own target reference shorter =>
    rw [flattenFrom_reference reference] at flattened
    rw [effectiveFrom_reference reference]
    split
    · exact ⟨_, rfl⟩
    obtain ⟨led, stepped, rest⟩ := bind_eq_ok.mp flattened
    rw [effectiveTarget, stepped]
    cases led with
    | none => exact ⟨none, rfl⟩
    | some led =>
      cases hops with
      | zero => cases rest
      | succ fewer => exact shorter fewer (by omega) rest
  | malformed hops own value noReference written noList =>
    simp [flattenFrom_malformed noReference written noList] at flattened
  | fragments hops own items noReference written ih =>
    obtain ⟨flats, each, -⟩ := (flattenFrom_fragments_eq_ok noReference written).mp flattened
    rw [effectiveFrom_fragments noReference written]
    split
    · exact ⟨_, rfl⟩
    refine findSomeM?_of_forall fun item member => ?_
    obtain ⟨_, -, inner, flattenedItem, -⟩ := exists_of_forall₂_left each member
    exact ih item member flattenedItem

/-- What a fragment amounts to has a keyword, be it with null. -/
def Contributes (registry : Registry) (keyword : String) (fragment : Json) : Prop :=
  ∃ name flat, registry.flatten name fragment = .ok flat ∧
    Keyed.contains flat.fields keyword = true

theorem contributes_iff (flattened : registry.flatten name fragment = .ok found) :
    registry.Contributes keyword fragment ↔ Keyed.contains found.fields keyword = true := by
  refine ⟨?_, fun contains => ⟨name, found, flattened, contains⟩⟩
  rintro ⟨other, flat, flattenedToo, contains⟩
  have derivation : registry.Derives none fragment found.fields :=
    derives_of_flattenFrom flattened
  rwa [derivation.unique (derives_of_flattenFrom flattenedToo)]

/-- A keyword that no two places of a schema say: no reference that the schema is composed of has a
value for it beside itself, and of a list of fragments and the keywords beside it one has it at
most. -/
structure ContributedOnce (registry : Registry) (keyword : String) (schema : Json) : Prop where
  references : ∀ own target, registry.Composes schema (.obj own) →
    Keyed.get? own "$ref" = some target → presentValue? own keyword = none
  fragments : ∀ own items, registry.Composes schema (.obj own) →
    Keyed.get? own "$ref" = none → Keyed.get? own "allOf" = some (.arr items) →
    (items.Pairwise fun one other =>
      ¬ (registry.Contributes keyword one ∧ registry.Contributes keyword other)) ∧
    (Keyed.contains own keyword = true → ∀ item ∈ items, ¬ registry.Contributes keyword item)

/-- What is merged where fragments are composed has a keyword once at most. -/
theorem ContributedOnce.alone (once : registry.ContributedOnce keyword top)
    (notFragments : keyword ≠ "allOf") (parts : registry.Composes top (.obj own))
    (noReference : Keyed.get? own "$ref" = none)
    (written : Keyed.get? own "allOf" = some (.arr items))
    (each : List.Forall₂ (fun item flat => ∃ found, registry.flatten name item = .ok found ∧
      found.fields = flat) items flats) :
    Alone keyword (flats ++ [Keyed.without own "allOf"]) := by
  obtain ⟨apart, apartBeside⟩ := once.fragments own items parts noReference written
  refine List.pairwise_append.mpr
    ⟨pairwise_of_forall₂ each apart ?_, List.pairwise_singleton _ _, ?_⟩
  · rintro item later _ _ ⟨found, flattened, rfl⟩ ⟨next, flattenedNext, rfl⟩ notBoth both
    exact notBoth ⟨⟨name, found, flattened, both.1⟩, ⟨name, next, flattenedNext, both.2⟩⟩
  · rintro flat member fragment isBeside ⟨contains, besideContains⟩
    obtain ⟨item, inItems, found, flattened, rfl⟩ := exists_of_forall₂_right each member
    refine apartBeside ?_ item inItems ⟨name, found, flattened, contains⟩
    rwa [List.mem_singleton.mp isBeside, Keyed.contains, Keyed.get?_without,
      if_neg notFragments] at besideContains

/-- What is merged has pairwise different keywords each time. -/
theorem distinct_of_flattened (keyed : registry.WellKeyed) (whole : top.isWellKeyed = true)
    (parts : registry.Composes top (.obj own)) (noReference : Keyed.get? own "$ref" = none)
    (written : Keyed.get? own "allOf" = some (.arr items))
    (each : List.Forall₂ (fun item flat => ∃ found, registry.flatten name item = .ok found ∧
      found.fields = flat) items flats) :
    ∀ fragment ∈ flats ++ [Keyed.without own "allOf"], Distinct fragment := by
  intro fragment member
  rcases List.mem_append.mp member with inFlats | isBeside
  · obtain ⟨item, inItems, found, flattened, rfl⟩ := exists_of_forall₂_right each inFlats
    have inItem := parts.trans (.fragment noReference written inItems (.self _))
    exact keyed.distinct_of_derives (derives_of_flattenFrom flattened)
      (keyed.of_composes inItem whole)
  · rw [List.mem_singleton.mp isBeside]
    exact Keyed.distinct_without (keyed.distinct whole parts) _

/-- The search finds what the flat schema says. -/
theorem ContributedOnce.effectiveFrom (once : registry.ContributedOnce keyword top)
    (notFragments : keyword ≠ "allOf") (keyed : registry.WellKeyed)
    (whole : top.isWellKeyed = true) (parts : registry.Composes top schema)
    (enough : hops ≤ registry.chainLimit)
    (flattened : registry.flattenFrom none hops visited name schema = .ok found) :
    registry.effectiveFrom none keyword hops visited schema =
      .ok (presentValue? found.fields keyword) := by
  induction hops, schema using Json.byFollowing generalizing visited name found with
  | notObject hops schema notObject => simp [flattenFrom_notObject notObject] at flattened
  | plain hops own noReference noFragments =>
    rw [flattenFrom_plain noReference noFragments] at flattened
    rw [effectiveFrom_plain noReference noFragments, ← Except.ok.inj flattened]
  | reference hops own target reference shorter =>
    rw [flattenFrom_reference reference] at flattened
    rw [effectiveFrom_reference reference, once.references own target parts reference]
    obtain ⟨led, stepped, rest⟩ := bind_eq_ok.mp flattened
    dsimp only
    rw [effectiveTarget, stepped]
    cases led with
    | none =>
      obtain ⟨_, _, _, _, skipping⟩ := step_eq_none stepped
      cases skipping
    | some led =>
      obtain ⟨text, next, schema, onChain⟩ := led
      obtain ⟨rfl, parsed, parse, -, arrived⟩ := step_eq_some stepped
      obtain ⟨-, led, -⟩ := arrive_eq_ok.mp arrived
      have inTarget := parts.trans (.reference reference parse led (.self _))
      cases hops with
      | zero => cases rest
      | succ fewer => exact shorter fewer (by omega) inTarget (by omega) rest
  | malformed hops own value noReference written noList =>
    simp [flattenFrom_malformed noReference written noList] at flattened
  | fragments hops own items noReference written ih =>
    obtain ⟨flats, each, rfl⟩ := (flattenFrom_fragments_eq_ok noReference written).mp flattened
    -- the fragments amount to the same without the chain
    have flattenedAlone : List.Forall₂ (fun item flat => ∃ found,
        registry.flatten name item = .ok found ∧ found.fields = flat) items flats :=
      each.imp fun item flat ⟨inner, flattenedItem, fields⟩ =>
        ⟨inner, flattenFrom_mono flattenedItem enough (List.nil_subset _), fields⟩
    have alone := once.alone notFragments parts noReference written flattenedAlone
    have present :
        presentValue? (Keyed.without own "allOf") keyword = presentValue? own keyword := by
      rw [presentValue?, presentValue?, Keyed.get?_without, if_neg notFragments]
    rw [alone.presentValue?_mergeFragments
        (distinct_of_flattened keyed whole parts noReference written flattenedAlone),
      List.findSome?_append, List.findSome?_singleton, present,
      effectiveFrom_fragments noReference written]
    cases ownValue : presentValue? own keyword with
    | none =>
      rw [Option.or_none]
      refine findSomeM?_eq_ok
        (List.forall₂_iff_zip.mpr ⟨each.length_eq, fun {item flat} pair => ?_⟩)
      obtain ⟨inner, flattenedItem, rfl⟩ := (List.forall₂_iff_zip.mp each).2 pair
      have inItems := (List.of_mem_zip pair).1
      exact ih item inItems (parts.trans (.fragment noReference written inItems (.self _)))
        enough flattenedItem
    | some value =>
      have silent : flats.findSome? (presentValue? · keyword) = none := by
        refine List.findSome?_eq_none_iff.mpr fun flat member => ?_
        have apart := (List.pairwise_append.mp alone).2.2 flat member _ (List.mem_singleton_self _)
        exact presentValue?_eq_none fun contains =>
          apart ⟨contains, contains_of_presentValue? (present.trans ownValue)⟩
      rw [silent, Option.none_or]

/-- Looking up a keyword agrees with flattening. It never fails on a schema that flattens, and where
no two places of the schema say the keyword it finds its value in the flat schema, null counting as
absent. -/
theorem effective_of_flatten (keyed : registry.WellKeyed) (whole : schema.isWellKeyed = true)
    (flattened : registry.flatten name schema = .ok found) :
    (∀ keyword, ∃ value, registry.effective? schema keyword = .ok value) ∧
    ∀ keyword, keyword ≠ "allOf" → registry.ContributedOnce keyword schema →
      registry.effective? schema keyword = .ok (presentValue? found.fields keyword) :=
  ⟨fun keyword => exists_effectiveFrom keyword flattened, fun _ notFragments once =>
    once.effectiveFrom notFragments keyed whole (.self schema) (Nat.le_refl _) flattened⟩

/-- Articles, by another name, are kept in a table. -/
def articles : Registry where
  entries := [
    ("Article", .obj [("type", .str "object"), ("x-tablename", .str "article")]),
    ("Item", .obj [("$ref", .str "#/Article"), ("description", .str "beside a reference")])]
  place := none
  documents := Documents.empty

/-- What is offered, or nothing. -/
def optionalItem : Keyed Json :=
  [("allOf", .arr [.obj [("nullable", .bool true)], .obj [("$ref", .str "#/Item")]])]

/-- Fragments among fragments, of which one has a table. -/
def offer : Keyed Json :=
  [("allOf", .arr [.obj [("description", .null)], .obj optionalItem]), ("title", .str "Offer")]

/-- The table of an offer is found in both ways. -/
theorem effective_of_flatten_articles : articles.WellKeyed ∧
    articles.ContributedOnce "x-tablename" (.obj offer) ∧ ∃ found,
      articles.flatten "Offer" (.obj offer) = .ok found ∧
      presentValue? found.fields "x-tablename" = some (.str "article") ∧
      articles.effective? (.obj offer) "x-tablename" = .ok (some (.str "article")) := by
  have keyed : articles.WellKeyed := wellKeyed_of_entries (by decide) (by decide +kernel)
  have references : articles.ComposedLocally (.obj offer) :=
    RefersLocally.composedLocally (by decide +kernel) (by decide +kernel)
  have flattened : articles.flatten "Offer" (.obj offer) = .ok ⟨"Offer", [("description", .null),
      ("nullable", .bool true), ("type", .str "object"), ("x-tablename", .str "article"),
      ("title", .str "Offer")]⟩ := by cbv
  have described : ¬ articles.Contributes "x-tablename" (.obj [("description", .null)]) := by
    have alone : articles.flatten "" (.obj [("description", .null)]) =
        .ok ⟨"", [("description", .null)]⟩ := by cbv
    rw [contributes_iff alone]
    decide
  have nullable : ¬ articles.Contributes "x-tablename" (.obj [("nullable", .bool true)]) := by
    have alone : articles.flatten "" (.obj [("nullable", .bool true)]) =
        .ok ⟨"", [("nullable", .bool true)]⟩ := by cbv
    rw [contributes_iff alone]
    decide
  have once : articles.ContributedOnce "x-tablename" (.obj offer) := by
    constructor
    · intro own target parts reference
      have silent := references.of_layers (fun layer => (Keyed.get? layer "$ref").isSome = true →
        (presentValue? layer "x-tablename").isNone = true) parts (by decide +kernel)
        (by decide +kernel)
      exact Option.isNone_iff_eq_none.mp (silent (by rw [reference]; rfl))
    · intro own items parts _ written
      have listed := references.of_layers (fun layer => (Keyed.get? layer "allOf").isSome = true →
        layer = offer ∨ layer = optionalItem) parts
        (by simp [offer, optionalItem, Json.composition, Json.fragmentsIn, Json.fragmentsOf,
          Json.compositions, Composition.layers, Composition.allLayers, Keyed.get?_cons])
        (by simp [articles, Json.composition, Composition.layers, Json.fragmentsIn,
          Keyed.get?_cons])
      rcases listed (by rw [written]; rfl) with rfl | rfl
      · obtain rfl := Json.arr.inj (Option.some.inj written)
        simp [described, offer, Keyed.contains, Keyed.get?_cons]
      · obtain rfl := Json.arr.inj (Option.some.inj written)
        simp [nullable, optionalItem, Keyed.contains, Keyed.get?_cons]
  refine ⟨keyed, once, _, flattened, rfl, ?_⟩
  exact (effective_of_flatten keyed (by decide +kernel) flattened).2 "x-tablename" (by decide) once

end Registry

end EntityMapping
