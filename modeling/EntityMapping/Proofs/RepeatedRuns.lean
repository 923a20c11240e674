import EntityMapping.Proofs.RepeatedBackrefs
import EntityMapping.Proofs.SettledMoments
import EntityMapping.Proofs.SettledValidity

/-!
Compiling a registry again that a compilation has left. At every moment of the first run the
registry has some of the keys, and in the second run it has all of them from the start. With settled
keys the second run does at every step what the first one did: relationships, tables and columns are
the same, and a key that the first run wrote into the registry is there already.
-/

set_option autoImplicit false
set_option relaxedAutoImplicit false

namespace EntityMapping

open Keyed (Distinct)
open ForeignKey (IsKeySchema)
open Registry (Moment Later)

variable {α β : Type}

theorem CompileM.ext {first second : CompileM α}
    (same : ∀ before, first.runOn before = second.runOn before) : first = second := funext same

namespace Compilation

/-- What a run has made, with another registry. -/
def withRegistry (state : Compilation) (registry : Registry) : Compilation :=
  { state with registry := registry }

/-- The model of an entity has been built. -/
def Built (state : Compilation) (name : String) : Prop :=
  ModelStore.isBuilt state.store name = true

/-- Where the action succeeds, it leads from one moment to another. With the registry of a later
moment it does the same again, and leaves that registry as it is. -/
def Repeats (base : Registry) (action : CompileM α) : Prop :=
  ∀ additions before value after, base.Moment additions before.registry →
    action.runOn before = (.ok value, after) →
    ∃ more, base.Moment more after.registry ∧ Later before.Built additions more ∧
      (∀ name, before.Built name → after.Built name) ∧
      ∀ most final, base.Moment most final → Later after.Built more most →
        action.runOn (before.withRegistry final) = (.ok value, after.withRegistry final)

variable {base registry : Registry} {name property : String} {before after : Compilation}
  {relationship : Relationship} {additions more most : String → Additions}

namespace Repeats

theorem pure (value : α) : Repeats base (Pure.pure value : CompileM α) := by
  intro additions before found after moment succeeded
  obtain ⟨same, rfl⟩ := Prod.mk.inj succeeded
  obtain rfl := Except.ok.inj same
  exact ⟨additions, moment, .refl _ _, fun _ built => built, fun _ _ _ _ => rfl⟩

theorem ask {query : Registry → Except SchemaError α}
    (kept : ∀ additions registry most final value, base.Moment additions registry →
      base.Moment most final → query registry = .ok value → query final = .ok value) :
    Repeats base (ask query) := by
  intro additions before value after moment succeeded
  obtain ⟨found, rfl⟩ := Prod.mk.inj succeeded
  refine ⟨additions, moment, .refl _ _, fun _ built => built, fun most final last _ => ?_⟩
  rw [CompileM.runOn_ask]
  exact Prod.ext (kept additions before.registry most final value moment last found) rfl

theorem within {action : CompileM α} (context : String) (repeats : Repeats base action) :
    Repeats base (within context action) := by
  intro additions before value after moment succeeded
  obtain ⟨found, sameAfter⟩ := Prod.mk.inj succeeded
  have succeededInside : action.runOn before = (.ok value, after) :=
    Prod.ext (inContext_eq_ok.mp found) sameAfter
  obtain ⟨more, next, later, built, again⟩ := repeats _ _ _ _ moment succeededInside
  refine ⟨more, next, later, built, fun most final last toLast => ?_⟩
  rw [CompileM.runOn_within, again most final last toLast]
  rfl

theorem bind {action : CompileM α} {next : α → CompileM β} (first : Repeats base action)
    (continued : ∀ value, Repeats base (next value)) : Repeats base (action >>= next) := by
  intro additions before value after moment succeeded
  obtain ⟨found, middle, one, two⟩ := CompileM.runOn_bind_eq_ok.mp succeeded
  obtain ⟨more, moment, later, built, again⟩ := first _ _ _ _ moment one
  obtain ⟨even, moment, laterStill, builtStill, againStill⟩ := continued _ _ _ _ _ moment two
  refine ⟨even, moment, later.trans laterStill built, fun name here => builtStill _ (built _ here),
    fun most final last toLast => ?_⟩
  have middleToLast := laterStill.trans toLast builtStill
  exact CompileM.runOn_bind_eq_ok.mpr ⟨found, middle.withRegistry final,
    again most final last middleToLast, againStill most final last toLast⟩

end Repeats

theorem repeats_addTable (table : AssociationTable) : Repeats base (addTable table) := by
  intro additions before value after moment succeeded
  have same : after.registry = before.registry ∧ after.store = before.store ∧
      ∀ final, (addTable table).runOn (before.withRegistry final) =
        (.ok value, after.withRegistry final) := by
    unfold addTable at succeeded ⊢
    simp only [CompileM.runOn_bind, CompileM.runOn_get] at succeeded ⊢
    have sameTables : ∀ final, (before.withRegistry final).tables = before.tables := fun _ => rfl
    simp only [sameTables]
    split at succeeded
    · obtain ⟨-, rfl⟩ := Prod.mk.inj succeeded
      exact ⟨rfl, rfl, fun _ => rfl⟩
    · split at succeeded
      · cases (Prod.mk.inj succeeded).1
      · rename_i equivalent
        obtain ⟨-, rfl⟩ := Prod.mk.inj succeeded
        refine ⟨rfl, rfl, fun final => ?_⟩
        rw [if_neg equivalent]
        rfl
  obtain ⟨sameRegistry, sameStore, again⟩ := same
  refine ⟨additions, sameRegistry ▸ moment, .refl _ _, fun name built => ?_, fun _ final _ _ =>
    again final⟩
  rw [Built, sameStore]
  exact built

/-- What is left to do for a property once it is found which relationship it is. -/
def linkFound (name property : String) : Option Relationship → CompileM (Option Relationship)
  | none => return none
  | some relationship => do
      within property (link name relationship)
      return some relationship

theorem runOn_linkProperty {schema : Json} {found : Option Relationship}
    (isGathered : before.registry.gather? property schema = .ok found) :
    (linkProperty name property schema).runOn before =
      (linkFound name property found).runOn before := by
  rw [linkProperty, CompileM.runOn_bind, CompileM.runOn_within, CompileM.runOn_ask, isGathered]
  cases found <;> rfl

variable (keyed : base.WellKeyed) (settled : base.KeysSettled)

include keyed settled

/-- A relationship is linked again in the same way. -/
theorem repeats_link (relates : base.Relates name relationship) :
    Repeats base (link name relationship) := by
  by_cases direct : relationship.cardinality.needsAssociationTable = false
  · rw [link_direct direct]
    intro additions before value after moment succeeded
    obtain ⟨ensured, sameTables⟩ := addForeignKey_eq_ok.mp succeeded
    have built : ∀ name, before.Built name → after.Built name := by
      intro name built
      obtain ⟨model, found⟩ := Option.isSome_iff_exists.mp built
      have steps : Steps [] before after := (addForeignKey_moves _ _ _ _).steps succeeded
      obtain ⟨last, isLast, -⟩ := steps.built List.not_mem_nil found
      exact Option.isSome_iff_exists.mpr ⟨last, isLast⟩
    obtain ⟨more, next, ensures⟩ := moment.ensuresAt keyed settled relates direct ensured
    refine ⟨more, next, ensures.later, built, fun most final last toLast => ?_⟩
    have toLastHere := (Later.refl before.Built more).trans toLast built
    exact addForeignKey_eq_ok.mpr
      ⟨ensures.again keyed settled moment relates last toLastHere, sameTables⟩
  · unfold link
    split
    · rename_i secondary
      refine .bind (.ask ?_) fun table => repeats_addTable table
      intro additions registry most final table moment last found
      rw [last.dresses.association keyed settled last.admits]
      exact (moment.dresses.association keyed settled moment.admits).mp found
    all_goals
      rename_i cardinality
      simp [cardinality, Cardinality.needsAssociationTable] at direct

/-- A property that is a relationship of an entity, wherever it is one, is linked again alike. -/
theorem repeats_linkProperty {schema : Json} (whole : schema.isWellKeyed = true)
    (relates : ∀ relationship, base.gather? property schema = .ok (some relationship) →
      base.Relates name relationship) : Repeats base (linkProperty name property schema) := by
  have gathered : ∀ additions registry, base.Moment additions registry →
      registry.gather? property schema = base.gather? property schema :=
    fun additions registry moment =>
      moment.dresses.gather? keyed (moment.admits.typed settled) property whole
  intro additions before value after moment succeeded
  cases isGathered : base.gather? property schema with
  | error e =>
    simp [linkProperty, CompileM.runOn_bind, gathered _ _ moment, isGathered, inContext,
      Except.mapError] at succeeded
  | ok found =>
    have repeats : Repeats base (linkFound name property found) := by
      cases found with
      | none => exact .pure _
      | some relationship =>
        exact .bind (.within _ (repeats_link keyed settled (relates _ isGathered))) fun _ =>
          .pure _
    -- what is found decides how to go on, and the same is found at all moments
    rw [runOn_linkProperty ((gathered _ _ moment).trans isGathered)] at succeeded
    obtain ⟨more, next, later, built, again⟩ := repeats _ _ _ _ moment succeeded
    refine ⟨more, next, later, built, fun most final last toLast => ?_⟩
    rw [runOn_linkProperty ((gathered _ _ last).trans isGathered)]
    exact again most final last toLast

theorem repeats_linkProperties {properties : Keyed Json}
    (whole : ∀ field ∈ properties, field.2.isWellKeyed = true)
    (relates : ∀ field ∈ properties, ∀ relationship,
      base.gather? field.1 field.2 = .ok (some relationship) → base.Relates name relationship) :
    Repeats base (linkProperties name properties) := by
  induction properties with
  | nil => exact .pure _
  | cons field rest ih =>
    obtain ⟨property, schema⟩ := field
    rw [linkProperties_cons]
    have here := repeats_linkProperty keyed settled (whole _ List.mem_cons_self)
      (relates _ List.mem_cons_self)
    have later := ih (fun field member => whole field (.tail _ member))
      fun field member => relates field (.tail _ member)
    exact .bind here fun _ => .bind later fun _ => .pure _

/-- Whatever is linked, what is gathered is what the registry as it is given says. -/
theorem gathered_of_linked {properties : Keyed Json} {gathered : Keyed Relationship}
    (whole : ∀ field ∈ properties, field.2.isWellKeyed = true)
    (relates : ∀ field ∈ properties, ∀ relationship,
      base.gather? field.1 field.2 = .ok (some relationship) → base.Relates name relationship)
    (moment : base.Moment additions before.registry)
    (linked : (linkProperties name properties).runOn before = (.ok gathered, after)) :
    ∀ field ∈ properties, ∃ found, base.gather? field.1 field.2 = .ok found ∧
      ∀ relationship, found = some relationship → (field.1, relationship) ∈ gathered := by
  induction properties generalizing before gathered additions with
  | nil => simp
  | cons field rest ih =>
    obtain ⟨property, schema⟩ := field
    obtain ⟨found, middle, others, here, later, rfl⟩ := linkProperties_cons_eq_ok.mp linked
    have wholeHere := whole _ List.mem_cons_self
    have sameGathered := moment.dresses.gather? keyed (moment.admits.typed settled) property wholeHere
    obtain ⟨more, next, -⟩ := repeats_linkProperty keyed settled wholeHere
      (relates _ List.mem_cons_self) _ _ _ _ moment here
    have inRest := ih (fun field member => whole field (.tail _ member))
      (fun field member => relates field (.tail _ member)) next later
    intro field member
    rcases List.mem_cons.mp member with rfl | isLater
    · obtain ⟨isGathered, -⟩ := linkProperty_eq_ok.mp here
      refine ⟨found, sameGathered.symm.trans isGathered, ?_⟩
      rintro relationship rfl
      exact List.mem_append_left _ (List.mem_singleton_self _)
    · obtain ⟨found, isGathered, among⟩ := inRest field isLater
      exact ⟨found, isGathered, fun relationship isSome =>
        List.mem_append_right _ (among relationship isSome)⟩

omit keyed settled in
/-- Key columns are not linked. -/
theorem linkProperties_keys {added : Additions} (schemas : ∀ key ∈ added.keys, ∃ type pointsAt,
    IsKeySchema key.2 type pointsAt ∧ type.isScalar = true) (properties : Keyed Json) :
    linkProperties name (properties ++ added.keyProperties) = linkProperties name properties := by
  have keysOnly : linkProperties name added.keyProperties = pure [] := by
    unfold Additions.keyProperties
    generalize added.keys = keys at schemas
    induction keys with
    | nil => rfl
    | cons key rest ih =>
      obtain ⟨type, pointsAt, isKey, scalar⟩ := schemas key List.mem_cons_self
      refine CompileM.ext fun before => ?_
      rw [List.map_cons, linkProperties_cons, CompileM.runOn_bind,
        runOn_linkProperty (isKey.gather? scalar), ih fun other member => schemas other (.tail _ member)]
      rfl
  induction properties with
  | nil => exact keysOnly
  | cons field rest ih =>
    obtain ⟨property, schema⟩ := field
    rw [List.cons_append, linkProperties_cons, linkProperties_cons, ih]

omit keyed settled in
theorem modelProperties_congr {one two : Registry} {required : List String}
    {gathered : Keyed Relationship} {declared : Keyed Json}
    (same : ∀ field ∈ declared, Keyed.get? gathered field.1 = none →
      one.flatten field.1 field.2 = two.flatten field.1 field.2) :
    modelProperties one required gathered declared =
      modelProperties two required gathered declared := by
  induction declared with
  | nil => rfl
  | cons field rest ih =>
    obtain ⟨property, schema⟩ := field
    have here : compiledProperty? one required gathered property schema =
        compiledProperty? two required gathered property schema := by
      unfold compiledProperty?
      cases notGathered : Keyed.get? gathered property with
      | some relationship => rfl
      | none =>
        have flat := same _ List.mem_cons_self notGathered
        simp only [columnProperty?, flat]
    rw [modelProperties_cons, modelProperties_cons, here,
      ih fun field member => same field (.tail _ member)]

omit keyed settled in
theorem model_congr {one two : Registry} {tablename : String} {parent : Option String}
    {gathered : Keyed Relationship} {own : Keyed Json}
    (same : ∀ properties, propertiesOf own = .ok properties →
      modelProperties one (requiredOf own) gathered properties =
        modelProperties two (requiredOf own) gathered properties) :
    model one name tablename parent gathered own = model two name tablename parent gathered own := by
  unfold model
  refine bind_congr fun description => bind_congr_of_eq fun properties found => ?_
  rw [same properties found]

end Compilation

end EntityMapping
