import EntityMapping.Proofs.Composing
import EntityMapping.Proofs.Merging

/-!
What a schema amounts to, said without a chain of references: a finite derivation. A reference
amounts to what its target amounts to, a list of fragments to what they amount to, merged with the
keywords beside them, and any other object to itself. Flattening only gives what can be derived,
and at most one result can be derived.
-/

set_option autoImplicit false
set_option relaxedAutoImplicit false

namespace EntityMapping

/-- The keywords beside a list of fragments, as one more fragment if there are any. -/
def siblings (own : Keyed Json) : List (Keyed Json) :=
  if (Keyed.without own "allOf").isEmpty then [] else [Keyed.without own "allOf"]

theorem eq_of_mem_siblings {own fragment : Keyed Json} (member : fragment ∈ siblings own) :
    fragment = Keyed.without own "allOf" := by
  unfold siblings at member
  split at member
  · cases member
  · exact List.mem_singleton.mp member

theorem mergeFragments_siblings (flats : List (Keyed Json)) (own : Keyed Json) :
    mergeFragments (flats ++ siblings own) =
      mergeFragments (flats ++ [Keyed.without own "allOf"]) := by
  unfold siblings
  split
  · rename_i none
    rw [List.isEmpty_iff.mp none, mergeFragments_append, layOver_nil, List.append_nil]
  · rfl

namespace Registry

/-- The flat schema that a schema amounts to, with the entity to skip, if one is given, taken as
empty. No chain of references is kept: a derivation is finite. -/
inductive Derives (registry : Registry) (skip : Option String) : Json → Keyed Json → Prop
  | plain {own : Keyed Json} : Keyed.get? own "$ref" = none → Keyed.get? own "allOf" = none →
      Derives registry skip (.obj own) own
  | skipped {own : Keyed Json} {text : String} {parsed : Reference} :
      Keyed.get? own "$ref" = some (.str text) → Reference.parse text = .ok parsed →
      skip = some parsed.name → Derives registry skip (.obj own) []
  | reference {own flat : Keyed Json} {text name : String} {parsed : Reference} {target : Json} :
      Keyed.get? own "$ref" = some (.str text) → Reference.parse text = .ok parsed →
      skip ≠ some parsed.name → registry.target text parsed = .ok (name, target) →
      Derives registry skip target flat → Derives registry skip (.obj own) flat
  | fragments {own : Keyed Json} {items : List Json} {flats : List (Keyed Json)} :
      Keyed.get? own "$ref" = none → Keyed.get? own "allOf" = some (.arr items) →
      items.length = flats.length →
      (∀ item flat, (item, flat) ∈ items.zip flats → Derives registry skip item flat) →
      Derives registry skip (.obj own) (mergeFragments (flats ++ siblings own))

variable {registry : Registry} {skip : Option String}

theorem Derives.of_forall₂ {own : Keyed Json} {items : List Json} {flats : List (Keyed Json)}
    (noReference : Keyed.get? own "$ref" = none)
    (written : Keyed.get? own "allOf" = some (.arr items))
    (each : List.Forall₂ (registry.Derives skip) items flats) :
    registry.Derives skip (.obj own) (mergeFragments (flats ++ [Keyed.without own "allOf"])) := by
  obtain ⟨sameLength, pairs⟩ := List.forall₂_iff_zip.mp each
  rw [← mergeFragments_siblings]
  exact .fragments noReference written sameLength fun _ _ member => pairs member

private theorem forall₂_unique {items : List Json} {flats others : List (Keyed Json)}
    (sameLength : items.length = flats.length)
    (unique : ∀ item flat, (item, flat) ∈ items.zip flats →
      ∀ {other}, registry.Derives skip item other → flat = other)
    (derived : List.Forall₂ (registry.Derives skip) items others) : flats = others := by
  induction derived generalizing flats with
  | nil => exact List.length_eq_zero_iff.mp sameLength.symm
  | cons first _ ih =>
    cases flats with
    | nil => simp at sameLength
    | cons flat rest =>
      have same := unique _ flat (by simp) first
      have later := ih (by simpa using sameLength)
        fun item flat member => unique item flat (by simp [member])
      rw [same, later]

/-- A schema amounts to one flat schema at most. -/
theorem Derives.unique {schema : Json} {flat other : Keyed Json}
    (derivation : registry.Derives skip schema flat)
    (second : registry.Derives skip schema other) : flat = other := by
  induction derivation generalizing other with
  | plain noReference noFragments => cases second <;> simp_all
  | skipped reference parse skipping => cases second <;> simp_all
  | reference reference parse notSkipped led _ ih =>
    cases second with
    | plain noReference _ => simp_all
    | skipped reference' parse' skipping => simp_all
    | reference reference' parse' notSkipped' led' derivation' =>
      obtain rfl := Json.str.inj (Option.some.inj (reference.symm.trans reference'))
      obtain rfl := Except.ok.inj (parse.symm.trans parse')
      obtain ⟨-, rfl⟩ := Prod.mk.inj (Except.ok.inj (led.symm.trans led'))
      exact ih derivation'
    | fragments noReference _ _ _ => simp_all
  | fragments noReference written sameLength _ ih =>
    cases second with
    | plain _ noFragments => simp_all
    | skipped reference _ _ => simp_all
    | reference reference _ _ _ _ => simp_all
    | fragments _ written' sameLength' each' =>
      obtain rfl := Json.arr.inj (Option.some.inj (written.symm.trans written'))
      have each := List.forall₂_iff_zip.mpr ⟨sameLength', fun {_ _} member => each' _ _ member⟩
      rw [forall₂_unique sameLength ih each]

/-- How following a reference can succeed: its entity is skipped, or its target is not on the
chain and flattens with the chain prolonged. -/
theorem flattenTarget_eq_ok {hops : Nat} {visited : List String} {name : String} {target : Json}
    {found : FlatSchema}
    (followed : registry.flattenTarget skip hops visited name target = .ok found) :
    ∃ text parsed, target = .str text ∧ Reference.parse text = .ok parsed ∧
      ((skip = some parsed.name ∧ found = ⟨name, []⟩) ∨
        (skip ≠ some parsed.name ∧ visited.contains parsed.key = false ∧
          ∃ next schema fewer, hops = fewer + 1 ∧ registry.target text parsed = .ok (next, schema) ∧
            registry.flattenFrom skip fewer (visited ++ [parsed.key]) next schema =
              .ok found)) := by
  obtain ⟨led, stepped, rest⟩ := bind_eq_ok.mp followed
  cases led with
  | none =>
    obtain ⟨text, parsed, rfl, parse, skipping⟩ := step_eq_none stepped
    exact ⟨text, parsed, rfl, parse, .inl ⟨skipping, (Except.ok.inj rest).symm⟩⟩
  | some led =>
    obtain ⟨text, next, schema, onChain⟩ := led
    obtain ⟨rfl, parsed, parse, notSkipped, arrived⟩ := step_eq_some stepped
    obtain ⟨fresh, led, rfl⟩ := arrive_eq_ok.mp arrived
    cases hops with
    | zero => cases rest
    | succ fewer =>
      exact ⟨text, parsed, rfl, parse, .inr ⟨notSkipped, by simpa using fresh, next, schema, fewer,
        rfl, led, rest⟩⟩

/-- Whatever flattening gives can be derived. -/
theorem derives_of_flattenFrom {hops : Nat} {visited : List String} {name : String}
    {schema : Json} {found : FlatSchema}
    (flattened : registry.flattenFrom skip hops visited name schema = .ok found) :
    registry.Derives skip schema found.fields := by
  induction hops, schema using Json.byFollowing generalizing visited name found with
  | notObject hops schema notObject => simp [flattenFrom_notObject notObject] at flattened
  | plain hops own noReference noFragments =>
    rw [flattenFrom_plain noReference noFragments, Except.ok.injEq] at flattened
    subst flattened
    exact .plain noReference noFragments
  | reference hops own target reference shorter =>
    rw [flattenFrom_reference reference] at flattened
    obtain ⟨text, parsed, rfl, parse, ⟨skipping, rfl⟩ | followed⟩ := flattenTarget_eq_ok flattened
    · exact .skipped reference parse skipping
    · obtain ⟨notSkipped, -, next, schema, fewer, rfl, led, rest⟩ := followed
      exact .reference reference parse notSkipped led (shorter fewer (by omega) rest)
  | malformed hops own value noReference written noList =>
    simp [flattenFrom_malformed noReference written noList] at flattened
  | fragments hops own items noReference written ih =>
    obtain ⟨flats, each, rfl⟩ := (flattenFrom_fragments_eq_ok noReference written).mp flattened
    obtain ⟨sameLength, pairs⟩ := List.forall₂_iff_zip.mp each
    refine .of_forall₂ noReference written
      (List.forall₂_iff_zip.mpr ⟨sameLength, fun {item flat} member => ?_⟩)
    obtain ⟨inner, flattenedItem, rfl⟩ := pairs member
    exact ih item (List.of_mem_zip member).1 flattenedItem

/-- What flattens after a chain of references flattens to the same after less of it, and where more
references may be followed. -/
theorem flattenFrom_mono {hops more : Nat} {visited others : List String} {name : String}
    {schema : Json} {found : FlatSchema}
    (flattened : registry.flattenFrom skip hops visited name schema = .ok found)
    (enough : hops ≤ more) (subset : others ⊆ visited) :
    registry.flattenFrom skip more others name schema = .ok found := by
  induction hops, schema using Json.byFollowing generalizing more visited others name found with
  | notObject hops schema notObject => simp [flattenFrom_notObject notObject] at flattened
  | plain hops own noReference noFragments =>
    rw [flattenFrom_plain noReference noFragments] at flattened ⊢
    exact flattened
  | reference hops own target reference shorter =>
    rw [flattenFrom_reference reference] at flattened ⊢
    obtain ⟨text, parsed, rfl, parse, ⟨skipping, rfl⟩ | followed⟩ := flattenTarget_eq_ok flattened
    · rw [flattenTarget_text, parse, ok_bind, if_pos skipping]
    · obtain ⟨notSkipped, fresh, next, schema, fewer, rfl, led, rest⟩ := followed
      obtain ⟨more, rfl⟩ : ∃ fewerToo, more = fewerToo + 1 := ⟨more - 1, by omega⟩
      have freshToo : ¬ others.contains parsed.key = true := fun met =>
        Bool.eq_false_iff.mp fresh (List.contains_iff_mem.mpr
          (subset (List.contains_iff_mem.mp met)))
      rw [flattenTarget_text, parse, ok_bind, if_neg notSkipped, if_neg freshToo, led, ok_bind]
      exact shorter fewer (by omega) rest (by omega) (List.append_subset.mpr
        ⟨List.subset_append_of_subset_left _ subset, List.subset_append_right _ _⟩)
  | malformed hops own value noReference written noList =>
    simp [flattenFrom_malformed noReference written noList] at flattened
  | fragments hops own items noReference written ih =>
    obtain ⟨flats, each, rfl⟩ := (flattenFrom_fragments_eq_ok noReference written).mp flattened
    refine (flattenFrom_fragments_eq_ok noReference written).mpr ⟨flats, ?_, rfl⟩
    obtain ⟨sameLength, pairs⟩ := List.forall₂_iff_zip.mp each
    refine List.forall₂_iff_zip.mpr ⟨sameLength, fun {item flat} member => ?_⟩
    obtain ⟨inner, flattenedItem, fields⟩ := pairs member
    exact ⟨inner, ih item (List.of_mem_zip member).1 flattenedItem enough subset, fields⟩

end Registry

end EntityMapping
