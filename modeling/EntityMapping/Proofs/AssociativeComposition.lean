import EntityMapping.Proofs.JoinedFields
import EntityMapping.Proofs.SameValues
import EntityMapping.Proofs.WellKeyed

/-!
Composition is associative. Fragments that are laid over each other may be laid over each other in
groups first, and keys and lists are in the same order then, if those of a group can be joined:
their properties and back references are objects, and what they require is a list. So a schema with
fragments among fragments amounts to the schema with all of them in a row.
-/

set_option autoImplicit false
set_option relaxedAutoImplicit false

namespace EntityMapping

open Keyed (Distinct)

section Items

variable {value : Json} {incoming : List Json}

theorem contains_iff_sameValue {items : List Json} :
    items.contains value = true ↔ ∃ item ∈ items, value.sameValue item = true := by
  induction items with
  | nil => simp
  | cons item rest ih =>
    rw [List.contains_cons, Bool.or_eq_true, ih]
    simp [BEq.beq]

theorem joinItems_append (existing incoming : List Json) (item : Json) :
    joinItems existing (incoming ++ [item]) =
      if (joinItems existing incoming).contains item then joinItems existing incoming
      else joinItems existing incoming ++ [item] :=
  List.foldl_append

/-- What is joined is there afterwards, or the same value is. -/
theorem mem_or_contains_joinItems (existing : List Json) (member : value ∈ incoming) :
    value ∈ joinItems existing incoming ∨ (joinItems existing incoming).contains value = true := by
  induction incoming using List.reverseRecOn with
  | nil => cases member
  | append_singleton before last ih =>
    rw [joinItems_append]
    rcases List.mem_append.mp member with earlier | isLast
    · split
      · exact ih earlier
      · refine (ih earlier).imp (List.mem_append_left _) fun there => ?_
        obtain ⟨item, inJoined, same⟩ := contains_iff_sameValue.mp there
        exact contains_iff_sameValue.mpr ⟨item, List.mem_append_left _ inJoined, same⟩
    · obtain rfl := List.mem_singleton.mp isLast
      split
      · rename_i there
        exact .inr there
      · exact .inl (by simp)

/-- Lists without repetition can be joined in groups. What is the same as an item of the middle list
is the same as what the first one has instead of it. -/
theorem joinItems_assoc (existing between incoming : List Json) :
    joinItems existing (joinItems between incoming) =
      joinItems (joinItems existing between) incoming := by
  induction incoming using List.reverseRecOn with
  | nil => rfl
  | append_singleton before last ih =>
    rw [joinItems_append, joinItems_append, ← ih]
    split
    · rename_i there
      have thereToo : (joinItems existing (joinItems between before)).contains last = true := by
        obtain ⟨item, member, same⟩ := contains_iff_sameValue.mp there
        rcases mem_or_contains_joinItems existing member with joined | instead
        · exact contains_iff_sameValue.mpr ⟨item, joined, same⟩
        · obtain ⟨other, joined, sameToo⟩ := contains_iff_sameValue.mp instead
          exact contains_iff_sameValue.mpr
            ⟨other, joined, Json.sameValue_trans _ _ _ same sameToo⟩
      rw [if_pos thereToo]
    · exact joinItems_append _ _ _

end Items

/-- A value that can be joined with others under a keyword. -/
structure Joinable (keyword : String) (value : Json) : Prop where
  byKey : Joining.ofKeyword keyword = .byKey → ∃ fields, value = .obj fields ∧ Distinct fields
  union : Joining.ofKeyword keyword = .union → ∃ items, value = .arr items

theorem setAll_assoc (fields : Keyed Json) {middle : Keyed Json} (distinct : Distinct middle)
    (last : Keyed Json) : Keyed.setAll fields (Keyed.setAll middle last) =
      Keyed.setAll (Keyed.setAll fields middle) last := by
  induction last using List.reverseRecOn with
  | nil => rfl
  | append_singleton before pair ih =>
    simp only [Keyed.setAll_eq_joinAll] at ih ⊢
    simp only [Keyed.joinAll_append, Keyed.joinAll_cons, Keyed.joinAll_nil]
    rw [Keyed.joinAll_joinOne_assoc (Keyed.distinct_joinAll distinct before) rfl
      (fun _ _ _ => rfl), ih]

namespace Joinable

variable {keyword : String} {between value : Json}

theorem joined (joinable : Joinable keyword between) (joinableToo : Joinable keyword value) :
    Joinable keyword (joinValues keyword (some between) value) := by
  constructor
  · intro joining
    obtain ⟨old, rfl, distinct⟩ := joinable.byKey joining
    obtain ⟨new, rfl, -⟩ := joinableToo.byKey joining
    exact ⟨Keyed.setAll old new, by simp [joinValues, joining], Keyed.distinct_setAll distinct new⟩
  · intro joining
    obtain ⟨old, rfl⟩ := joinable.union joining
    obtain ⟨new, rfl⟩ := joinableToo.union joining
    exact ⟨joinItems old new, by simp [joinValues, joining]⟩

theorem joinValues_assoc (joinable : Joinable keyword between)
    (joinableToo : Joinable keyword value) (before : Option Json) :
    joinValues keyword before (joinValues keyword (some between) value) =
      joinValues keyword (some (joinValues keyword before between)) value := by
  cases joining : Joining.ofKeyword keyword with
  | byKey =>
    obtain ⟨old, rfl, distinct⟩ := joinable.byKey joining
    obtain ⟨new, rfl, -⟩ := joinableToo.byKey joining
    rcases before with _ | _ | _ | _ | _ | _ | _ | fields <;> simp [joinValues, joining]
    exact setAll_assoc fields distinct new
  | union =>
    obtain ⟨old, rfl⟩ := joinable.union joining
    obtain ⟨new, rfl⟩ := joinableToo.union joining
    rcases before with _ | _ | _ | _ | _ | _ | items | _ <;> simp [joinValues, joining]
    exact joinItems_assoc items old new
  | replace => simp [joinValues, joining]

end Joinable

/-- A fragment all of whose values can be joined. -/
def JoinsWell (fragment : Keyed Json) : Prop :=
  ∀ keyword value, (keyword, value) ∈ fragment → Joinable keyword value

namespace JoinsWell

variable {laid fragment : Keyed Json} {fragments : List (Keyed Json)}

theorem layOver (below : JoinsWell laid) (above : JoinsWell fragment) :
    JoinsWell (layOver laid fragment) := by
  induction fragment generalizing laid with
  | nil => exact below
  | cons field rest ih =>
    obtain ⟨key, incoming⟩ := field
    refine ih ?_ fun keyword value member => above keyword value (List.mem_cons_of_mem _ member)
    intro keyword value member
    rcases Keyed.mem_of_mem_set member with set | before
    · obtain ⟨rfl, rfl⟩ := Prod.mk.inj set
      have joinable := above keyword incoming List.mem_cons_self
      cases found : Keyed.get? laid keyword with
      | none => rwa [joinValues_none]
      | some between => exact (below keyword between (Keyed.mem_of_get? found)).joined joinable
    · exact below keyword value before

theorem mergeFragments (each : ∀ fragment ∈ fragments, JoinsWell fragment) :
    JoinsWell (mergeFragments fragments) := by
  induction fragments using List.reverseRecOn with
  | nil => exact fun keyword value member => by cases member
  | append_singleton before last ih =>
    rw [mergeFragments_append]
    exact (ih fun fragment member => each fragment (by simp [member])).layOver (each last (by simp))

/-- A fragment may be laid over the one below it first. -/
theorem layOver_assoc (below : JoinsWell fragment) (distinct : Distinct fragment)
    {last : Keyed Json} (above : JoinsWell last) (laid : Keyed Json) :
    EntityMapping.layOver laid (EntityMapping.layOver fragment last) =
      EntityMapping.layOver (EntityMapping.layOver laid fragment) last := by
  induction last using List.reverseRecOn with
  | nil => rfl
  | append_singleton before pair ih =>
    obtain ⟨key, value⟩ := pair
    have aboveBefore : JoinsWell before := fun keyword value member =>
      above keyword value (by simp [member])
    have joined : JoinsWell (Keyed.joinAll joinValues fragment before) := below.layOver aboveBefore
    have earlier := ih aboveBefore
    simp only [layOver_eq_joinAll] at earlier ⊢
    simp only [Keyed.joinAll_append, Keyed.joinAll_cons, Keyed.joinAll_nil]
    rw [Keyed.joinAll_joinOne_assoc (Keyed.distinct_joinAll distinct before)
      (joinValues_none key value), earlier]
    intro earliest between found
    exact (joined key between (Keyed.mem_of_get? found)).joinValues_assoc
      (above key value (by simp)) earliest

/-- Fragments that are laid over keywords one by one may be merged first. -/
theorem foldl_layOver (each : ∀ fragment ∈ fragments, JoinsWell fragment) (laid : Keyed Json) :
    fragments.foldl EntityMapping.layOver laid =
      EntityMapping.layOver laid (EntityMapping.mergeFragments fragments) := by
  induction fragments using List.reverseRecOn with
  | nil => rfl
  | append_singleton before last ih =>
    have eachBefore : ∀ fragment ∈ before, JoinsWell fragment := fun fragment member =>
      each fragment (by simp [member])
    rw [List.foldl_append, ih eachBefore, mergeFragments_append,
      (mergeFragments eachBefore).layOver_assoc (distinct_mergeFragments before)
        (each last (by simp))]
    rfl

/-- Merging in groups is merging. -/
theorem mergeFragments_nested (each : ∀ fragment ∈ fragments, JoinsWell fragment)
    (before after : List (Keyed Json)) :
    EntityMapping.mergeFragments (before ++ [EntityMapping.mergeFragments fragments] ++ after) =
      EntityMapping.mergeFragments (before ++ fragments ++ after) := by
  have inner := foldl_layOver each (before.foldl EntityMapping.layOver [])
  simp only [EntityMapping.mergeFragments, List.foldl_append, List.foldl_cons,
    List.foldl_nil] at inner ⊢
  rw [inner]

end JoinsWell

/-- Whether the properties and the back references of a schema are objects, and what it requires is
a list. -/
def Json.joinsWell (schema : Json) : Bool :=
  (schema.get? "properties").all isObject && (schema.get? "x-backrefs").all isObject &&
    (schema.get? "required").all isList

theorem Joining.eq_of_ofKeyword_byKey {keyword : String}
    (joining : Joining.ofKeyword keyword = .byKey) :
    keyword = "properties" ∨ keyword = "x-backrefs" := by
  unfold Joining.ofKeyword at joining
  split at joining
  · simp_all
  · split at joining <;> cases joining

theorem Joining.eq_of_ofKeyword_union {keyword : String}
    (joining : Joining.ofKeyword keyword = .union) : keyword = "required" := by
  unfold Joining.ofKeyword at joining
  split at joining
  · cases joining
  · split at joining
    · assumption
    · cases joining

theorem joinsWell_of_obj {fragment : Keyed Json} (whole : (Json.obj fragment).isWellKeyed = true)
    (joins : (Json.obj fragment).joinsWell = true) : JoinsWell fragment := by
  intro keyword value member
  have found := Keyed.get?_of_mem ((Json.isWellKeyed_obj fragment).mp whole).1 member
  obtain ⟨⟨properties, backrefs⟩, required⟩ :
      ((Keyed.get? fragment "properties").all Json.isObject = true ∧
        (Keyed.get? fragment "x-backrefs").all Json.isObject = true) ∧
        (Keyed.get? fragment "required").all Json.isList = true := by
    simpa [Json.joinsWell, Json.get?, Json.fields?] using joins
  constructor
  · intro joining
    have isObject : (Keyed.get? fragment keyword).all Json.isObject = true := by
      rcases Joining.eq_of_ofKeyword_byKey joining with rfl | rfl
      · exact properties
      · exact backrefs
    refine isFields_of_isObject whole (fun present isPresent => ?_) value found
    simpa [isPresent] using isObject
  · intro joining
    obtain rfl := Joining.eq_of_ofKeyword_union joining
    have isList : value.isList = true := by simpa [found] using required
    cases value <;> simp_all [Json.isList, Json.items?]

/-- Values may be merged in groups. -/
theorem mergeValues_nested {values : List Json}
    (each : ∀ value ∈ values, value.isWellKeyed = true ∧ value.joinsWell = true)
    (before after : List Json) :
    mergeValues (before ++ values ++ after) =
      mergeValues (before ++ [mergeValues values] ++ after) := by
  have joins : ∀ fragment ∈ values.filterMap Json.fields?, JoinsWell fragment := by
    intro fragment member
    obtain ⟨value, inValues, isObject⟩ := List.mem_filterMap.mp member
    obtain rfl : value = .obj fragment := by cases value <;> simp_all [Json.fields?]
    exact joinsWell_of_obj (each _ inValues).1 (each _ inValues).2
  simp only [mergeValues, List.filterMap_append, List.filterMap_cons, List.filterMap_nil,
    Json.fields?]
  rw [JoinsWell.mergeFragments_nested joins]

namespace Registry

variable {registry : Registry} {skip : Option String} {hops : Nat} {visited : List String}
  {name : String} {own : Keyed Json} {items : List Json}

/-- The keywords beside fragments stand for themselves. -/
theorem mapM_siblings (noReference : Keyed.get? own "$ref" = none) :
    (((siblings own).map Json.obj).mapM fun item =>
      (registry.flattenFrom skip hops visited name item).map FlatSchema.fields) =
        .ok (siblings own) := by
  rw [mapM_eq_ok_iff, List.forall₂_map_left_iff, List.forall₂_same]
  intro fragment beside
  have plain : Keyed.get? fragment "$ref" = none ∧ Keyed.get? fragment "allOf" = none := by
    rw [eq_of_mem_siblings beside]
    simp [Keyed.get?_without, noReference]
  rw [flattenFrom_plain plain.1 plain.2]
  rfl

/-- Fragments among fragments may stand in a row with the others, with what is beside them behind
them. -/
theorem flattenFrom_nested (first last : List Json) (noReference : Keyed.get? own "$ref" = none)
    (written : Keyed.get? own "allOf" = some (.arr items))
    (joinsBeside : ∀ fragment ∈ siblings own, JoinsWell fragment)
    (joins : ∀ item ∈ items, ∀ flat, registry.flattenFrom skip hops visited name item = .ok flat →
      JoinsWell flat.fields) :
    registry.flattenFrom skip hops visited name
        (.obj [("allOf", .arr (first ++ [.obj own] ++ last))]) =
      registry.flattenFrom skip hops visited name
        (.obj [("allOf", .arr (first ++ (items ++ (siblings own).map Json.obj) ++ last))]) := by
  have onlyFragments (items : List Json) :
      Keyed.without [("allOf", Json.arr items)] "allOf" = [] := by
    simp [Keyed.without]
  rw [flattenFrom_fragments rfl rfl, flattenFrom_fragments rfl rfl]
  simp only [List.mapM_append, List.mapM_cons, List.mapM_nil, bind_assoc, pure_bind, onlyFragments,
    mapM_siblings noReference, flattenFrom_fragments noReference written, ok_bind]
  refine bind_congr_of_eq fun flats _ => ?_
  cases flattened : items.mapM fun item =>
      (registry.flattenFrom skip hops visited name item).map FlatSchema.fields with
  | error e => rfl
  | ok inner =>
    simp only [ok_bind, Except.map]
    refine bind_congr_of_eq fun others _ => ?_
    have each : ∀ fragment ∈ inner ++ siblings own, JoinsWell fragment := by
      intro fragment member
      rcases List.mem_append.mp member with inInner | beside
      · obtain ⟨item, inItems, found⟩ :=
          exists_of_forall₂_right (mapM_eq_ok_iff.mp flattened) inInner
        obtain ⟨flat, isFlat, rfl⟩ := map_eq_ok.mp found
        exact joins item inItems flat isFlat
      · exact joinsBeside fragment beside
    rw [← mergeFragments_siblings, List.append_assoc, JoinsWell.mergeFragments_nested each]
    simp only [List.append_assoc]

/-- Composition is associative. Values that are merged may be merged in groups, if those of a group
can be joined. A list of fragments that stands among fragments amounts to the same in a row with
them, and one more layer around a schema leaves what the layers within it amount to. -/
theorem flatten_assoc (keyed : registry.WellKeyed) :
    (∀ before values after : List Json,
      (∀ value ∈ values, value.isWellKeyed = true ∧ value.joinsWell = true) →
      mergeValues (before ++ values ++ after) =
        mergeValues (before ++ [mergeValues values] ++ after)) ∧
    (∀ (skip : Option String) (name : String) (first items last : List Json),
      (∀ item ∈ items, item.isWellKeyed = true) →
      (∀ item ∈ items, ∀ flat, registry.flattenWithout skip name item = .ok flat →
        flat.schema.joinsWell = true) →
      registry.flattenWithout skip name
          (.obj [("allOf", .arr (first ++ [.obj [("allOf", .arr items)]] ++ last))]) =
        registry.flattenWithout skip name (.obj [("allOf", .arr (first ++ items ++ last))])) ∧
    ∀ (skip : Option String) (name : String) (own : Keyed Json) (items last : List Json),
      (Json.obj own).isWellKeyed = true → (Json.obj own).joinsWell = true →
      Keyed.get? own "$ref" = none → Keyed.get? own "allOf" = some (.arr items) →
      (∀ item ∈ items, ∀ flat, registry.flattenWithout skip name item = .ok flat →
        flat.schema.joinsWell = true) →
      registry.flattenWithout skip name (.obj [("allOf", .arr (.obj own :: last))]) =
        registry.flattenWithout skip name
          (.obj [("allOf", .arr (items ++ (siblings own).map Json.obj ++ last))]) := by
  have joinsFlat {skip name} {items : List Json} (whole : ∀ item ∈ items, item.isWellKeyed = true)
      (joins : ∀ item ∈ items, ∀ flat, registry.flattenWithout skip name item = .ok flat →
        flat.schema.joinsWell = true) : ∀ item ∈ items, ∀ flat,
      registry.flattenFrom skip registry.chainLimit [] name item = .ok flat →
        JoinsWell flat.fields := fun item member flat flattened =>
    joinsWell_of_obj (keyed.of_derives (derives_of_flattenFrom flattened) (whole item member))
      (joins item member flat flattened)
  refine ⟨fun before values after each => mergeValues_nested each before after,
    fun skip name first items last whole joins => ?_,
    fun skip name own items last whole joinsOwn noReference written joins => ?_⟩
  · have beside : siblings [("allOf", Json.arr items)] = [] := by simp [siblings, Keyed.without]
    have noReference : Keyed.get? [("allOf", Json.arr items)] "$ref" = none := rfl
    have nested := flattenFrom_nested first last noReference rfl (by simp [beside])
      (joinsFlat whole joins)
    simpa [beside, flattenWithout] using nested
  · have inItems : ∀ item ∈ items, item.isWellKeyed = true :=
      (Json.isWellKeyed_arr items).mp (Json.isWellKeyed_of_get? whole written)
    have joinsBeside : ∀ fragment ∈ siblings own, JoinsWell fragment := by
      intro fragment beside keyword value member
      rw [eq_of_mem_siblings beside] at member
      exact joinsWell_of_obj whole joinsOwn keyword value (List.mem_of_mem_filter member)
    exact flattenFrom_nested [] last noReference written joinsBeside (joinsFlat inItems joins)

/-- What is listed has a number. -/
def catalogue : Registry where
  entries := [("Listed", .obj [("required", .arr [.str "id"]), ("properties", .obj [
    ("id", .obj [("type", .str "integer")])])])]
  place := none
  documents := Documents.empty

/-- What has a title, which it requires, and a number in another form. -/
def titled : Json :=
  .obj [("required", .arr [.str "title", .str "id"]), ("properties", .obj [
    ("title", .obj [("type", .str "string")]), ("id", .obj [("type", .str "string")])])]

/-- What stands on a shelf requires its title too. -/
def shelved : Json :=
  .obj [("x-backrefs", .obj []), ("required", .arr [.str "shelf", .str "title"]),
    ("properties", .obj [("shelf", .obj [("type", .str "string")])])]

/-- Values in groups, fragments among fragments, and a layer around fragments with keywords beside
them. -/
theorem flatten_assoc_catalogue : catalogue.WellKeyed ∧
    mergeValues ([.null, titled] ++ [shelved, titled] ++ [shelved]) =
      mergeValues ([.null, titled] ++ [mergeValues [shelved, titled]] ++ [shelved]) ∧
    catalogue.flattenWithout none "Book" (.obj [("allOf", .arr ([titled] ++
        [.obj [("allOf", .arr [.obj [("$ref", .str "#/Listed")], shelved])]] ++ [titled]))]) =
      catalogue.flattenWithout none "Book" (.obj [("allOf", .arr ([titled] ++
        [.obj [("$ref", .str "#/Listed")], shelved] ++ [titled]))]) ∧
    catalogue.flattenWithout none "Book" (.obj [("allOf", .arr [.obj [
        ("allOf", .arr [.obj [("$ref", .str "#/Listed")], shelved]),
        ("required", .arr [.str "id", .str "author"])], titled])]) =
      catalogue.flattenWithout none "Book" (.obj [("allOf", .arr [.obj [("$ref", .str "#/Listed")],
        shelved, .obj [("required", .arr [.str "id", .str "author"])], titled])]) := by
  have keyed : catalogue.WellKeyed := wellKeyed_of_entries (by decide) (by decide +kernel)
  have listed : catalogue.flattenWithout none "Book" (.obj [("$ref", .str "#/Listed")]) =
      .ok ⟨"Listed", [("required", .arr [.str "id"]), ("properties", .obj [
        ("id", .obj [("type", .str "integer")])])]⟩ := by cbv
  have stands : catalogue.flattenWithout none "Book" shelved = .ok ⟨"Book", [("x-backrefs", .obj []),
      ("required", .arr [.str "shelf", .str "title"]),
      ("properties", .obj [("shelf", .obj [("type", .str "string")])])]⟩ := by cbv
  have joins : ∀ item ∈ [Json.obj [("$ref", .str "#/Listed")], shelved], ∀ flat,
      catalogue.flattenWithout none "Book" item = .ok flat → flat.schema.joinsWell = true := by
    intro item member flat flattened
    simp only [List.mem_cons, List.not_mem_nil, or_false] at member
    rcases member with rfl | rfl
    · rw [← Except.ok.inj (listed.symm.trans flattened)]
      rfl
    · rw [← Except.ok.inj (stands.symm.trans flattened)]
      rfl
  obtain ⟨merging, nested, layered⟩ := flatten_assoc keyed
  exact ⟨keyed, merging _ _ _ (by decide +kernel),
    nested none "Book" [titled] _ [titled] (by decide +kernel) joins,
    layered none "Book" _ _ [titled] (by decide +kernel) (by decide +kernel) rfl rfl joins⟩

end Registry

end EntityMapping
