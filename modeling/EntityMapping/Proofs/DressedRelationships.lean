import EntityMapping.Proofs.Dressing
import EntityMapping.Proofs.Parents

/-!
What entities of a registry with additions say. The additions name no tables and no parents and
refer to nothing, so every entity keeps its parent; where only entities of type `object` get
additions, every property that is a relationship stays the same relationship.
-/

set_option autoImplicit false
set_option relaxedAutoImplicit false

namespace EntityMapping

open Keyed (Distinct)
open Registry (wrap)

/-- The keywords that additions may say. -/
def Additions.keywords : List String := ["type", "properties", "x-backrefs"]

/-- Flat schemas of the same name that say the same, some keywords aside. -/
def SameBut (except : List String) (flat other : FlatSchema) : Prop :=
  flat.name = other.name ∧ Distinct flat.fields ∧ Distinct other.fields ∧
    ∀ keyword, keyword ∉ except →
      Keyed.get? flat.fields keyword = Keyed.get? other.fields keyword

namespace SameBut

variable {except : List String} {flat other : FlatSchema} {keyword : String}

theorem mono {more : List String} (same : SameBut except flat other) (subset : except ⊆ more) :
    SameBut more flat other :=
  ⟨same.1, same.2.1, same.2.2.1, fun keyword notExcepted =>
    same.2.2.2 keyword fun excepted => notExcepted (subset excepted)⟩

theorem as {α : Type} {form : KeywordForm α} (same : SameBut except flat other)
    (notExcepted : keyword ∉ except) :
    KeywordReader.as flat.keywords form keyword = KeywordReader.as other.keywords form keyword :=
  KeywordReader.as_congr (same.2.2.2 keyword notExcepted)

theorem json? (same : SameBut ["properties", "x-backrefs"] flat other) :
    flat.keywords.json? = other.keywords.json? := same.as (by decide)

theorem primitiveType (same : SameBut ["properties", "x-backrefs"] flat other) :
    flat.keywords.primitiveType = other.keywords.primitiveType := by
  have text : flat.keywords.text? "type" = other.keywords.text? "type" := same.as (by decide)
  simp only [KeywordReader.primitiveType, KeywordReader.typeText, text]

theorem readOnly? (same : SameBut ["properties", "x-backrefs"] flat other) :
    flat.keywords.readOnly? = other.keywords.readOnly? := same.as (by decide)

theorem primaryKey? (same : SameBut ["properties", "x-backrefs"] flat other) :
    flat.keywords.primaryKey? = other.keywords.primaryKey? := same.as (by decide)

end SameBut

namespace Registry

variable {skip wanted : Option String} {hops : Nat} {visited : List String} {name keyword : String}
  {schema : Json} {registry base dressed : Registry} {additions : String → Additions}
  {added : Additions}

/-- What additions do not say is looked up on the schema below. -/
theorem effectiveFrom_apply (notAdded : keyword ∉ Additions.keywords)
    (notFragments : keyword ≠ "allOf") :
    registry.effectiveFrom skip keyword hops visited (added.apply schema) =
      registry.effectiveFrom skip keyword hops visited schema := by
  simp only [Additions.keywords, List.mem_cons, List.not_mem_nil, or_false, not_or] at notAdded
  have fragments : ∀ fragment ∈ added.fragments,
      IsFragment fragment ∧ Keyed.get? fragment keyword = none := fun fragment member =>
    ⟨Additions.isFragment_of_mem member,
      Additions.silent_of_mem member notAdded.1 notAdded.2.1 notAdded.2.2⟩
  rw [Additions.apply_eq]
  generalize added.fragments = list at fragments
  induction list using List.reverseRecOn with
  | nil => rfl
  | append_singleton before last ih =>
    obtain ⟨isFragment, silent⟩ := fragments last (by simp)
    rw [List.foldl_append, List.foldl_cons, List.foldl_nil,
      effectiveFrom_wrap isFragment silent notFragments]
    exact ih fun fragment member => fragments fragment (by simp [member])

theorem searchParent_apply : registry.searchParent wanted hops visited (added.apply schema) =
    registry.searchParent wanted hops visited schema := by
  have fragments := fun fragment (member : fragment ∈ added.fragments) =>
    Additions.isFragment_of_mem member
  rw [Additions.apply_eq]
  generalize added.fragments = list at fragments
  induction list using List.reverseRecOn with
  | nil => rfl
  | append_singleton before last ih =>
    rw [List.foldl_append, List.foldl_cons, List.foldl_nil,
      searchParent_wrap (fragments last (by simp))]
    exact ih fun fragment member => fragments fragment (by simp [member])

theorem sameBut_of_corresponds {except : List String} {one two : Except SchemaError FlatSchema}
    (some : ∃ keyword, keyword ∉ except)
    (each : ∀ keyword, keyword ∉ except → Alike (Corresponds keyword (· = ·)) one two) :
    Alike (SameBut except) one two := by
  obtain ⟨keyword, notExcepted⟩ := some
  have inhabited : Nonempty { keyword // keyword ∉ except } := ⟨⟨keyword, notExcepted⟩⟩
  refine (Alike.all fun keyword : { keyword // keyword ∉ except } => each keyword keyword.2).mono ?_
  intro flat other each
  obtain ⟨sameName, distinct, distinctToo, -⟩ := each ⟨keyword, notExcepted⟩
  exact ⟨sameName, distinct, distinctToo, fun other isOther => (each ⟨other, isOther⟩).2.2.2⟩

/-- A schema says the same in two registries whose additions change some keywords only. -/
theorem Keeps.flattenWithout_sameBut {one two : Registry} {first second : String → Additions}
    {except : List String} (dressesOne : base.Dresses first one)
    (dressesTwo : base.Dresses second two) (some : ∃ keyword, keyword ∉ except)
    (keeps : ∀ keyword, keyword ∉ except →
      Keeps base one first second skip schema keyword (· = ·)) :
    Alike (SameBut except) (one.flattenWithout skip name schema)
      (two.flattenWithout skip name schema) := by
  refine sameBut_of_corresponds some fun keyword notExcepted => ?_
  unfold flattenWithout
  rw [dressesOne.chainLimit, dressesTwo.chainLimit]
  exact (keeps keyword notExcepted).flattenFrom dressesOne dressesTwo (.self schema)

namespace Dresses

/-- A reference leads to the same name in both registries; the schema there may have additions. -/
theorem leadAlike (dresses : base.Dresses additions dressed) :
    LeadAlike base dressed fun schema other => ∃ added : Additions, other = added.apply schema := by
  intro text parsed
  rw [dresses.target]
  cases base.target text parsed with
  | error e => exact .error e
  | ok found => exact .ok ⟨rfl, _, rfl⟩

/-- Keywords that additions do not say are found as before. -/
theorem effective? (dresses : base.Dresses additions dressed)
    (notAdded : keyword ∉ Additions.keywords) (notFragments : keyword ≠ "allOf") :
    dressed.effective? (added.apply schema) keyword = base.effective? schema keyword := by
  unfold Registry.effective? Registry.effectiveWithout?
  rw [dresses.chainLimit, effectiveFrom_apply notAdded notFragments]
  refine dresses.leadAlike.effectiveFrom ?_
  rintro hops visited schema _ ⟨added, rfl⟩
  exact effectiveFrom_apply notAdded notFragments

theorem searchParent (dresses : base.Dresses additions dressed) :
    dressed.searchParent wanted hops visited schema =
      base.searchParent wanted hops visited schema := by
  refine dresses.leadAlike.searchParent ?_ ?_
  · rintro schema _ ⟨added, rfl⟩
    exact dresses.effective? (by decide) (by decide)
  · rintro hops visited schema _ ⟨added, rfl⟩
    exact searchParent_apply

/-- A keyword whose value no addition changes has the same value in both registries. -/
theorem keeps_eq {top : Json} (keyed : base.WellKeyed) (whole : top.isWellKeyed = true)
    (kept : ∀ name schema flat, base.get? name = some schema → base.Meets skip top name →
      base.Derives skip schema flat →
      (additions name).valueOver keyword (Keyed.get? flat keyword) = Keyed.get? flat keyword) :
    Keeps base base (fun _ => .nothing) additions skip top keyword (· = ·) where
  absent := rfl
  written own follows := ⟨keyed.distinct whole follows.composes, rfl⟩
  laid below above := by rw [below, above]
  added name schema flat value registered meets derivation same := by
    rw [← same, Additions.valueOver_nothing, kept name schema flat registered meets derivation]

theorem keeps_silent {top : Json} (keyed : base.WellKeyed) (whole : top.isWellKeyed = true)
    (notAdded : keyword ∉ Additions.keywords) :
    Keeps base base (fun _ => .nothing) additions skip top keyword (· = ·) := by
  simp only [Additions.keywords, List.mem_cons, List.not_mem_nil, or_false, not_or] at notAdded
  exact keeps_eq keyed whole fun _ _ _ _ _ _ =>
    Additions.valueOver_of_silent _ notAdded.1 notAdded.2.1 notAdded.2.2

/-- A schema says the same in both registries, keywords that additions change aside. -/
theorem flattenWithout_sameBut {except : List String} (dresses : base.Dresses additions dressed)
    (some : ∃ keyword, keyword ∉ except)
    (keeps : ∀ keyword, keyword ∉ except →
      Keeps base base (fun _ => .nothing) additions skip schema keyword (· = ·)) :
    Alike (SameBut except) (base.flattenWithout skip name schema)
      (dressed.flattenWithout skip name schema) :=
  Keeps.flattenWithout_sameBut (.refl base) dresses some keeps

/-- An entity with additions is flattened as its schema is, with the additions on top. -/
theorem flattenWithout_apply (named : added.fragments = [] ∨ schema.get? "$ref" = none) :
    registry.flattenWithout skip name (added.apply schema) =
      (registry.flattenWithout skip name schema).map fun flat =>
        ⟨flat.name, added.laidOn flat.fields⟩ :=
  flattenFrom_apply named

/-- Every entity keeps its parent. -/
theorem parent? (dresses : base.Dresses additions dressed) (keyed : base.WellKeyed)
    (whole : schema.isWellKeyed = true)
    (named : added.fragments = [] ∨ schema.get? "$ref" = none) :
    dressed.parent? name (added.apply schema) = base.parent? name schema := by
  refine (Alike.eq ?_).symm
  unfold Registry.parent? Registry.flatten
  rw [flattenWithout_apply named]
  have flat : Alike (SameBut Additions.keywords) (base.flattenWithout none name schema)
      (dressed.flattenWithout none name schema) :=
    dresses.flattenWithout_sameBut ⟨"x-inherits", by decide⟩
      fun _ notAdded => keeps_silent keyed whole notAdded
  have search : ∀ wanted, dressed.searchParent wanted dressed.chainLimit [] (added.apply schema) =
      base.searchParent wanted base.chainLimit [] schema := by
    intro wanted
    rw [dresses.chainLimit, searchParent_apply, dresses.searchParent]
  generalize base.flattenWithout none name schema = below at flat ⊢
  generalize dressed.flattenWithout none name schema = above at flat ⊢
  cases flat with
  | error e => exact .error e
  | @ok flat other same =>
    have notSaid : (added.valueOver "x-inherits" (Keyed.get? other.fields "x-inherits")) =
        Keyed.get? other.fields "x-inherits" :=
      Additions.valueOver_of_silent _ (by decide) (by decide) (by decide)
    have sameWord : flat.keywords.inherits? =
        (FlatSchema.keywords ⟨other.name, added.laidOn other.fields⟩).inherits? := by
      refine KeywordReader.as_congr ?_
      dsimp only
      rw [Additions.get?_laidOn same.2.2.1, notSaid]
      exact same.2.2.2 _ (by decide)
    simp only [Except.map, ok_bind, sameWord, search]
    exact .refl _

/-- What belongs to an entity itself is what its schema amounts to with the parent skipped, and the
additions on top. -/
theorem ownSchema (dresses : base.Dresses additions dressed) (keyed : base.WellKeyed)
    (whole : schema.isWellKeyed = true)
    (named : added.fragments = [] ∨ schema.get? "$ref" = none) :
    dressed.ownSchema name (added.apply schema) =
      base.parent? name schema >>= fun parent =>
        (dressed.flattenWithout parent name schema).map fun flat =>
          ⟨parent, added.laidOn flat.fields⟩ := by
  unfold Registry.ownSchema
  rw [dresses.parent? keyed whole named]
  refine bind_congr fun parent => ?_
  rw [flattenWithout_apply named]
  cases dressed.flattenWithout parent name schema <;> rfl

end Dresses

section Gathering

variable {one two : Registry}

/-- What is gathered from a reference depends on what schemas say, their properties and back
references aside. -/
theorem gatherReference_congr (flattened : ∀ {name schema}, schema.isWellKeyed = true →
      Alike (SameBut ["properties", "x-backrefs"]) (one.flatten name schema)
        (two.flatten name schema)) (type : RelationshipType) (property : String) :
    two.gatherReference type property schema = one.gatherReference type property schema := by
  refine (Alike.eq ?_).symm
  refine (Alike.refl _).bind fun collected _ sameKeywords => ?_
  subst sameKeywords
  refine (Alike.refl _).bind fun reference _ sameReference => ?_
  subst sameReference
  have whole : (Json.obj [("$ref", .str (reference.getD ""))]).isWellKeyed = true :=
    (Json.isWellKeyed_obj _).mpr ⟨by simp [Distinct], by simp [Json.isWellKeyed_str]⟩
  refine (flattened whole).bind fun flat other same => ?_
  have found : ∀ keyword, keyword ∉ ["properties", "x-backrefs"] →
      Relationship.lookUp collected flat.fields keyword =
        Relationship.lookUp collected other.fields keyword := by
    intro keyword notAdded
    simp only [Relationship.lookUp, presentValue?, same.2.2.2 keyword notAdded]
  simp only [same.primitiveType, same.1, found "x-backref" (by decide),
    found "x-uselist" (by decide), found "x-secondary" (by decide),
    found "x-foreign-key-column" (by decide)]
  exact .refl _

/-- A property is the same relationship, or none, where schemas say the same and keywords are found
alike. -/
theorem gather?_congr (flattened : ∀ {name schema}, schema.isWellKeyed = true →
      Alike (SameBut ["properties", "x-backrefs"]) (one.flatten name schema)
        (two.flatten name schema))
    (effective : ∀ {schema} keyword, keyword ∉ Additions.keywords → keyword ≠ "allOf" →
      two.effective? schema keyword = one.effective? schema keyword)
    (property : String) (whole : schema.isWellKeyed = true) :
    two.gather? property schema = one.gather? property schema := by
  refine (Alike.eq ?_).symm
  have reference : ∀ {type schema}, two.gatherReference type property schema =
      one.gatherReference type property schema := gatherReference_congr flattened _ _
  have list : two.gatherList property schema = one.gatherList property schema := by
    simp only [Registry.gatherList, Registry.keywords, KeywordReader.items?,
      KeywordReader.description?, KeywordReader.writeOnly?, KeywordReader.flag?,
      KeywordReader.text?, KeywordReader.as, effective "items" (by decide) (by decide),
      effective "description" (by decide) (by decide),
      effective "writeOnly" (by decide) (by decide), reference]
  have object : two.gatherObject property schema = one.gatherObject property schema := by
    simp only [Registry.gatherObject, reference]
  refine (flattened whole).bind fun flat other same => ?_
  rw [same.json?, same.primitiveType, same.readOnly?, list, object]
  exact .refl _

end Gathering

/-- Only entities of type `object` get additions. -/
def ObjectsDressed (base : Registry) (additions : String → Additions) : Prop :=
  ∀ name schema flat, (additions name).fragments ≠ [] → base.get? name = some schema →
    base.Derives none schema flat → Keyed.get? flat "type" = some (.str "object")

/-- What an entity amounts to stays the same under what is added to it, properties and back
references aside. -/
theorem ObjectsDressed.valueOver {flat : Keyed Json} (typed : base.ObjectsDressed additions)
    (registered : base.get? name = some schema) (derivation : base.Derives none schema flat)
    (notAdded : keyword ∉ ["properties", "x-backrefs"]) :
    (additions name).valueOver keyword (Keyed.get? flat keyword) = Keyed.get? flat keyword := by
  simp only [List.mem_cons, List.not_mem_nil, or_false, not_or] at notAdded
  by_cases isType : keyword = "type"
  · subst isType
    by_cases empty : (additions name).fragments = []
    · rw [Additions.valueOver, empty]
      rfl
    · rw [typed name schema flat empty registered derivation, Additions.valueOver_type]
  · exact Additions.valueOver_of_silent _ isType notAdded.1 notAdded.2

namespace Dresses

/-- An entity is flattened alike in both registries, if what is added to it fits on top. -/
theorem flattenEntry {related top : Option Json → Option Json → Prop}
    (dresses : base.Dresses additions dressed) (registered : base.get? name = some schema)
    (keeps : Keeps base base (fun _ => .nothing) additions none schema keyword related)
    (onTop : ∀ flat value, base.Derives none schema flat →
      related (Keyed.get? flat keyword) value →
        top (Keyed.get? flat keyword) ((additions name).valueOver keyword value)) :
    Alike (Corresponds keyword top) (base.flatten name schema)
      (dressed.flatten name ((additions name).apply schema)) := by
  have itself : base.flatten name schema = (base.flatten name schema).map id := by
    cases base.flatten name schema <;> rfl
  have below : Alike (Corresponds keyword related) (base.flatten name schema)
      (dressed.flatten name schema) := by
    unfold Registry.flatten flattenWithout
    rw [dresses.chainLimit]
    exact keeps.flattenFrom (.refl base) dresses (.self schema)
  have above : dressed.flatten name ((additions name).apply schema) =
      (dressed.flatten name schema).map fun flat =>
        ⟨flat.name, (additions name).laidOn flat.fields⟩ :=
    flattenWithout_apply (dresses.named _ _ registered)
  rw [itself, above]
  refine below.map_of_eq fun flat other flattened same => ?_
  obtain ⟨sameName, distinct, distinctToo, same⟩ := same
  refine ⟨sameName, distinct, Additions.distinct_laidOn distinctToo, ?_⟩
  dsimp only [id]
  rw [Additions.get?_laidOn distinctToo]
  exact onTop _ _ (derives_of_flattenFrom flattened) same

/-- An entity says the same in both registries, some keywords aside. -/
theorem flattenEntry_sameBut {except : List String} (dresses : base.Dresses additions dressed)
    (registered : base.get? name = some schema) (some : ∃ keyword, keyword ∉ except)
    (keeps : ∀ keyword, keyword ∉ except →
      Keeps base base (fun _ => .nothing) additions none schema keyword (· = ·))
    (onTop : ∀ keyword, keyword ∉ except → ∀ flat, base.Derives none schema flat →
      (additions name).valueOver keyword (Keyed.get? flat keyword) = Keyed.get? flat keyword) :
    Alike (SameBut except) (base.flatten name schema)
      (dressed.flatten name ((additions name).apply schema)) := by
  refine sameBut_of_corresponds some fun keyword notExcepted => ?_
  refine dresses.flattenEntry registered (keeps keyword notExcepted) fun flat _ derivation same => ?_
  exact (onTop keyword notExcepted flat derivation).symm.trans (congrArg _ same)

theorem keeps_typed {top : Json} (keyed : base.WellKeyed) (typed : base.ObjectsDressed additions)
    (whole : top.isWellKeyed = true) (notAdded : keyword ∉ ["properties", "x-backrefs"]) :
    Keeps base base (fun _ => .nothing) additions none top keyword (· = ·) :=
  keeps_eq keyed whole fun _ _ _ registered _ derivation =>
    typed.valueOver registered derivation notAdded

/-- A schema says the same in both registries, its properties and back references aside. -/
theorem flatten_sameBut (dresses : base.Dresses additions dressed) (keyed : base.WellKeyed)
    (typed : base.ObjectsDressed additions) (whole : schema.isWellKeyed = true) :
    Alike (SameBut ["properties", "x-backrefs"]) (base.flatten name schema)
      (dressed.flatten name schema) :=
  dresses.flattenWithout_sameBut ⟨"x-tablename", by decide⟩
    fun _ notAdded => keeps_typed keyed typed whole notAdded

/-- A property is the same relationship in both registries, or none in either. -/
theorem gather? (dresses : base.Dresses additions dressed) (keyed : base.WellKeyed)
    (typed : base.ObjectsDressed additions) (property : String)
    (whole : schema.isWellKeyed = true) :
    dressed.gather? property schema = base.gather? property schema := by
  refine gather?_congr (dresses.flatten_sameBut keyed typed) ?_ property whole
  intro schema keyword notAdded notFragments
  have same : dressed.effective? (Additions.nothing.apply schema) keyword =
      base.effective? schema keyword := dresses.effective? notAdded notFragments
  exact same

end Dresses

end Registry

end EntityMapping
