import EntityMapping.Proofs.Moments
import Mathlib.Data.List.Chain

/-!
All moments of a compilation, one after the other: as it begins, when the registry is prepared, when
it comes to an entity or to a property of an entity, and where it ends, be it with an error. From
each moment to the next one a run makes the changes that it can make and no others.
-/

set_option autoImplicit false
set_option relaxedAutoImplicit false

namespace EntityMapping

namespace Compilation

variable {config : Config} {names : List String} {name : String} {before : Compilation}

/-- The moments of a run that links some properties of an entity: when it comes to each of them, and
the end. -/
def linkingMoments (name : String) : Keyed Json → Compilation → List Compilation
  | [], state => [state]
  | (property, schema) :: rest, state =>
      state :: match (linkProperty name property schema).runOn state with
        | (.ok _, next) => linkingMoments name rest next
        | (.error _, next) => [next]

/-- The properties that are linked when an entity is compiled; none if it has no table. -/
def propertiesToLink (config : Config) (registry : Registry) (name : String) :
    Except SchemaError (Keyed Json) :=
  match registry.get? name with
  | none => .ok []
  | some schema => do
      let own ← registry.ownSchema name schema
      match ← own.keywords.tablename? with
      | none => return []
      | some _ =>
          if config.validateExtensions then registry.validateEntity name schema
          propertiesOf own.fields

/-- The moments of a run that compiles an entity. It changes nothing before it links properties. -/
def entityMoments (config : Config) (name : String) (state : Compilation) : List Compilation :=
  match propertiesToLink config state.registry name with
  | .ok properties => linkingMoments name properties state
  | .error _ => [state]

/-- The moments of a run that compiles some entities. -/
def compilingMoments (config : Config) : List String → Compilation → List Compilation
  | [], state => [state]
  | name :: rest, state =>
      entityMoments config name state ++
        match (compileEntity config name).runOn state with
        | (.ok made, next) => compilingMoments config rest (next.record made)
        | (.error _, _) => []

end Compilation

open Compilation in
/-- The moments of a compilation. Before the entities are compiled only the registry changes. -/
def Registry.moments (registry : Registry) (config : Config) : List Compilation :=
  start registry ::
    match prepared config registry with
    | (.ok _, state) => compilingMoments config state.registry.names state
    | (.error _, state) => [state]

namespace Compilation

variable {config : Config} {names : List String} {name : String} {before : Compilation}

/-- The moments of a run go from one state to another one, each later than the one before. -/
structure Passes (names : List String) (first : Compilation) (moments : List Compilation)
    (last : Compilation) : Prop where
  first : moments.head? = some first
  last : moments.getLast? = some last
  ordered : moments.IsChain (Steps names)

namespace Passes

variable {first middle next last : Compilation} {moments others : List Compilation}

theorem single (state : Compilation) : Passes names state [state] state :=
  ⟨rfl, rfl, .singleton state⟩

theorem append (one : Passes names first moments middle) (between : Steps names middle next)
    (two : Passes names next others last) : Passes names first (moments ++ others) last where
  first := by
    rw [List.head?_append, one.first]
    rfl
  last := by
    rw [List.getLast?_append, two.last]
    rfl
  ordered := by
    refine List.isChain_append.mpr ⟨one.ordered, two.ordered, ?_⟩
    rintro state isLast other isFirst
    rw [one.last, Option.mem_some_iff] at isLast
    rw [two.first, Option.mem_some_iff] at isFirst
    exact isLast ▸ isFirst ▸ between

theorem cons (between : Steps names first next) (later : Passes names next moments last) :
    Passes names first (first :: moments) last :=
  (single first).append between later

/-- Of any two moments one is later than the other. -/
theorem pairwise (passes : Passes names first moments last) :
    moments.Pairwise (Steps names) :=
  passes.ordered.pairwise

theorem steps {moment : Compilation} (passes : Passes names first moments last)
    (member : moment ∈ moments) : Steps names first moment := by
  obtain ⟨rest, rfl⟩ : ∃ rest, moments = first :: rest := List.head?_eq_some_iff.mp passes.first
  rcases List.mem_cons.mp member with rfl | later
  · exact .refl
  · exact List.rel_of_pairwise_cons passes.pairwise later

end Passes

theorem passes_linkingMoments (names : List String) (name : String) (properties : Keyed Json)
    (before : Compilation) : Passes names before (linkingMoments name properties before)
      ((linkProperties name properties).runOn before).2 := by
  induction properties generalizing before with
  | nil => exact .single before
  | cons field rest ih =>
    obtain ⟨property, schema⟩ := field
    have moved : Moves names (linkProperty name property schema) :=
      linkProperty_moves name property schema
    specialize moved before
    rw [linkingMoments, linkProperties_cons, CompileM.runOn_bind]
    cases linked : (linkProperty name property schema).runOn before with
    | mk result next =>
      rw [linked] at moved
      cases result with
      | error e => exact .cons moved (.single next)
      | ok found =>
        refine .cons moved ?_
        dsimp only
        rw [CompileM.runOn_bind]
        have later := ih next
        cases others : (linkProperties name rest).runOn next with
        | mk result last =>
          rw [others] at later
          cases result <;> exact later

theorem runOn_linkedModel (name tablename : String) (schema : Json) (own : Registry.OwnSchema)
    (before : Compilation) : ((linkedModel name tablename schema own).runOn before).2 =
      match propertiesOf own.fields with
      | .ok properties => ((linkProperties name properties).runOn before).2
      | .error _ => before := by
  unfold linkedModel
  rw [CompileM.runOn_bind, CompileM.runOn_ask]
  cases propertiesOf own.fields with
  | error e => rfl
  | ok properties =>
    dsimp only
    rw [CompileM.runOn_bind]
    cases (linkProperties name properties).runOn before with
    | mk result after =>
      cases result with
      | error e => rfl
      | ok gathered =>
        -- The model is made of what is there then; whether it can be made changes nothing.
        dsimp only
        rw [CompileM.runOn_bind, CompileM.runOn_get]
        dsimp only
        rw [CompileM.runOn_bind, CompileM.runOn_ask]
        cases after.registry.flattenWithout own.parent name
            ((after.registry.get? name).getD schema) >>= fun flat =>
              model after.registry name tablename own.parent gathered flat.fields <;> rfl

/-- What compiling an entity leaves behind is what linking its properties does. -/
theorem runOn_compileEntity (config : Config) (name : String) (before : Compilation) :
    ((compileEntity config name).runOn before).2 =
      match propertiesToLink config before.registry name with
      | .ok properties => ((linkProperties name properties).runOn before).2
      | .error _ => before := by
  unfold compileEntity propertiesToLink
  rw [CompileM.runOn_bind, CompileM.runOn_get]
  dsimp only
  cases before.registry.get? name with
  | none => rfl
  | some schema =>
    dsimp only
    rw [CompileM.runOn_bind, CompileM.runOn_ask]
    cases before.registry.ownSchema name schema with
    | error e => rfl
    | ok own =>
      dsimp only
      rw [CompileM.runOn_bind, CompileM.runOn_ask, ok_bind]
      cases own.keywords.tablename? with
      | error e => rfl
      | ok tablename =>
        cases tablename with
        | none => rfl
        | some tablename =>
          have linked := runOn_linkedModel name tablename schema own before
          by_cases validated : config.validateExtensions = true
          · simp only [validated, if_true]
            rw [CompileM.runOn_bind, CompileM.runOn_ask]
            cases before.registry.validateEntity name schema with
            | error e => rfl
            | ok _ => exact linked
          · simp only [validated]
            exact linked

theorem passes_entityMoments (names : List String) (config : Config) (name : String)
    (before : Compilation) : Passes names before (entityMoments config name before)
      ((compileEntity config name).runOn before).2 := by
  rw [entityMoments, runOn_compileEntity]
  cases propertiesToLink config before.registry name with
  | error e => exact .single before
  | ok properties => exact passes_linkingMoments names name properties before

theorem passes_compilingMoments (config : Config) {list : List String} (subset : list ⊆ names)
    (before : Compilation) : Passes names before (compilingMoments config list before)
      ((compileEntities config list).runOn before).2 := by
  induction list generalizing before with
  | nil => exact .single before
  | cons name rest ih =>
    obtain ⟨member, subsetRest⟩ := List.cons_subset.mp subset
    have here := passes_entityMoments names config name before
    rw [compilingMoments, compileEntities_cons]
    cases compiled : (compileEntity config name).runOn before with
    | mk result next =>
      rw [compiled] at here
      cases result with
      | error e =>
        dsimp only
        rw [List.append_nil]
        exact here
      | ok made => exact here.append (record_steps compiled member) (ih subsetRest _)

/-- A run that links all properties is at one of its moments when it has linked the first ones. -/
theorem mem_linkingMoments {properties first : Keyed Json} {gathered : Keyed Relationship}
    {after : Compilation} (begins : first <+: properties)
    (linked : (linkProperties name properties).runOn before = (.ok gathered, after)) :
    ((linkProperties name first).runOn before).2 ∈ linkingMoments name properties before := by
  induction first generalizing before after properties gathered with
  | nil => exact List.mem_of_mem_head? (passes_linkingMoments [] name properties before).first
  | cons field rest ih =>
    obtain ⟨property, schema⟩ := field
    obtain ⟨later, rfl⟩ := begins
    rw [List.cons_append] at linked
    obtain ⟨one, middle, others, here, linked, -⟩ := linkProperties_cons_eq_ok.mp linked
    have inRest := ih (List.prefix_append rest later) linked
    have same : ((linkProperties name ((property, schema) :: rest)).runOn before).2 =
        ((linkProperties name rest).runOn middle).2 := by
      rw [linkProperties_cons, CompileM.runOn_bind, here]
      dsimp only
      rw [CompileM.runOn_bind]
      cases (linkProperties name rest).runOn middle with
      | mk result state => cases result <;> rfl
    rw [List.cons_append, linkingMoments, here, same]
    exact List.mem_cons_of_mem _ inRest

theorem mem_compilingMoments {earlier later : List String} {state moment : Compilation}
    (reached : (compileEntities config earlier).runOn before = (.ok (), state))
    (member : moment ∈ entityMoments config name state) :
    moment ∈ compilingMoments config (earlier ++ name :: later) before := by
  induction earlier generalizing before with
  | nil =>
    obtain ⟨-, rfl⟩ := Prod.mk.inj reached
    exact List.mem_append_left _ member
  | cons other rest ih =>
    obtain ⟨made, middle, compiled, reached⟩ := compileEntities_cons_eq_ok.mp reached
    rw [List.cons_append, compilingMoments, compiled]
    exact List.mem_append_right _ (ih reached)

/-- The moments of an entity with a table are those of linking what it declares. -/
theorem entityMoments_of_made {after : Compilation} {model : Model}
    (compiled : (compileEntity config name).runOn before = (.ok (some model), after)) :
    entityMoments config name before =
      linkingMoments name (before.registry.declared name) before := by
  rcases compileEntity_eq_ok.mp compiled with ⟨-, isNone, -⟩ |
    ⟨schema, own, tablename, registered, ownFound, named, compiled⟩
  · cases isNone
  cases tablename with
  | none => cases compiled.1
  | some tablename =>
    obtain ⟨properties, _, _, _, found, -⟩ := linkedModel_eq_ok.mp compiled.2
    have toLink : propertiesToLink config before.registry name = .ok properties := by
      simp only [propertiesToLink, registered, ownFound, ok_bind, named]
      by_cases validated : config.validateExtensions = true
      · simp [validated, compiled.1 validated, found]
      · simp [validated, found]
    have declared : properties = before.registry.declared name := by
      rw [Registry.declared_eq registered ownFound]
      exact propertiesOf_eq_ok found
    simp only [entityMoments, toLink, declared]

/-- A run that succeeds is at one of its moments when it comes to a property of an entity with a
model. -/
theorem Visit.linking_mem {registry : Registry} {after : Compilation} {model : Model}
    (visit : Visit config registry name after) (made : visit.made = some model)
    (isPrepared : (prepared config registry).1 = .ok ()) (property : String) :
    linking config registry name property ∈ registry.moments config := by
  have compiled := visit.compiled
  rw [made] at compiled
  obtain ⟨run⟩ := entityRun_of_compileEntity compiled
  have linked := run.linked
  rw [run.properties_eq] at linked
  have here : linking config registry name property ∈
      entityMoments config name (reaching config registry name) := by
    rw [entityMoments_of_made compiled]
    exact mem_linkingMoments (List.takeWhile_prefix _) linked
  have member : linking config registry name property ∈
      compilingMoments config (visit.earlier ++ name :: visit.later) (prepared config registry).2 :=
    mem_compilingMoments visit.reached here
  rw [← visit.names] at member
  have parted : prepared config registry = (.ok (), (prepared config registry).2) :=
    Prod.ext isPrepared rfl
  rw [Registry.moments, parted]
  exact List.mem_cons_of_mem _ member

end Compilation

open Compilation in
/-- The last moment of a compilation is what it returns. -/
theorem Registry.getLast?_moments (registry : Registry) (config : Config) :
    ∃ last, (registry.moments config).getLast? = some last ∧
      (registry.compile config).2 = last.registry ∧
      ∀ compiled, (registry.compile config).1 = .ok compiled →
        compiled = ⟨last.store, last.tables⟩ := by
  rw [compile_eq, moments]
  cases prepared config registry with
  | mk outcome state =>
    cases outcome with
    | error e => exact ⟨state, rfl, rfl, fun compiled failed => by cases failed⟩
    | ok _ =>
      have passes := passes_compilingMoments config (List.Subset.refl state.registry.names) state
      refine ⟨_, by rw [List.getLast?_cons, passes.last, Option.getD_some], ?_⟩
      dsimp only
      cases (compileEntities config state.registry.names).runOn state with
      | mk outcome after =>
        cases outcome with
        | error e => exact ⟨rfl, fun compiled failed => by cases failed⟩
        | ok _ => exact ⟨rfl, fun compiled same => (Except.ok.inj same).symm⟩

end EntityMapping
