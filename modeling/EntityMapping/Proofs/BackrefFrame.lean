import Mathlib
import EntityMapping.Proofs.BackedRegistries
import EntityMapping.Proofs.GivenModels
import EntityMapping.Proofs.RepeatedBackrefs

/-!
What adding back references leaves as it is. Two compilations of a registry, one of which adds back
references first, run side by side: what the registries say of tables, parents, relationships and
keys is the same at every moment, so the models and the association tables are. Only back references
differ: those of the models, and those in the schemas that are recorded for columns.
-/

set_option autoImplicit false
set_option relaxedAutoImplicit false

namespace EntityMapping

variable {α β γ δ : Type}

/-- The same model, its back references aside, and those in the schemas that it records for columns. -/
structure Model.SameButBackrefs (model other : Model) : Prop where
  properties : List.Forall₂ (ModelProperty.SameBut ["x-backrefs"]) model.properties other.properties
  rest : other = { model with properties := other.properties, backrefs := other.backrefs }

namespace Model.SameButBackrefs

variable {model other : Model}

theorem name (same : SameButBackrefs model other) : model.name = other.name := by rw [same.rest]

theorem hasProperty (same : SameButBackrefs model other) (property : String) :
    other.hasProperty property = model.hasProperty property := by
  rw [Bool.eq_iff_iff, Model.hasProperty_iff, Model.hasProperty_iff, Model.artifacts,
    Model.artifacts, artifactsOf_congr same.properties]

theorem addColumn (same : SameButBackrefs model other) (property : String) (schema : Json)
    (column : Column) : SameButBackrefs (model.addColumn property schema column)
      (other.addColumn property schema column) where
  properties := List.rel_append same.properties (.cons (.refl _) .nil)
  rest := by rw [Model.addColumn, Model.addColumn, same.rest]

end Model.SameButBackrefs

namespace ModelStore

variable {related : Model → Model → Prop} {store others : ModelStore} {name : String}

/-- Models of the same names are found alike. -/
theorem get?_alike (names : ∀ model other, related model other → model.name = other.name)
    (each : List.Forall₂ related store others) :
    Option.Rel related (get? store name) (get? others name) := by
  induction each with
  | nil => exact .none
  | cons first _ ih =>
    rw [get?_cons, get?_cons, ← names _ _ first]
    split
    · exact .some first
    · exact ih

theorem isBuilt_alike (names : ∀ model other, related model other → model.name = other.name)
    (each : List.Forall₂ related store others) (name : String) :
    isBuilt others name = isBuilt store name := by
  have found : Option.Rel related (get? store name) (get? others name) := get?_alike names each
  unfold isBuilt
  generalize get? store name = one at found ⊢
  generalize get? others name = two at found ⊢
  cases found with
  | none => rfl
  | some _ => rfl

theorem forall₂_update {change changeToo : Model → Model}
    (names : ∀ model other, related model other → model.name = other.name)
    (each : List.Forall₂ related store others)
    (changed : ∀ model other, related model other → related (change model) (changeToo other)) :
    List.Forall₂ related (update change name store) (update changeToo name others) := by
  induction each with
  | nil => exact .nil
  | cons first rest ih =>
    rw [update, update, ← names _ _ first]
    split
    · exact .cons (changed _ _ first) rest
    · exact .cons first ih

theorem forall₂_add {model other : Model}
    (names : ∀ model other, related model other → model.name = other.name)
    (each : List.Forall₂ related store others) (added : related model other) :
    List.Forall₂ related (add store model) (add others other) := by
  unfold add
  rw [← names _ _ added, isBuilt_alike names each]
  split
  · exact forall₂_update names each fun _ _ _ => added
  · exact List.rel_append each (.cons added .nil)

/-- Whether a model has a property does not depend on back references. -/
theorem hasProperty_alike (each : List.Forall₂ Model.SameButBackrefs store others)
    (name property : String) : hasProperty others name property = hasProperty store name property := by
  have found : Option.Rel Model.SameButBackrefs (get? store name) (get? others name) :=
    get?_alike (fun _ _ same => same.name) each
  unfold hasProperty
  generalize get? store name = one at found ⊢
  generalize get? others name = two at found ⊢
  cases found with
  | none => rfl
  | some same => exact same.hasProperty property

end ModelStore

namespace Compilation

/-- Two runs side by side, one of which has added back references before. -/
structure Abreast (off on : Compilation) : Prop where
  registries : ∃ (base : Registry) (first second : String → Additions),
    base.Backed off.registry on.registry first second
  store : List.Forall₂ Model.SameButBackrefs off.store on.store
  tables : off.tables = on.tables

theorem Abreast.record {off on : Compilation} {made madeToo : Option Model}
    (abreast : Abreast off on) (same : Option.Rel Model.SameButBackrefs made madeToo) :
    Abreast (off.record made) (on.record madeToo) := by
  cases same with
  | none => exact abreast
  | some same =>
    exact ⟨abreast.registries, ModelStore.forall₂_add (fun _ _ same => same.name) abreast.store same,
      abreast.tables⟩

/-- Steps of two runs side by side: where both succeed, their values are related and the runs stay
side by side. -/
def Parallel (related : α → β → Prop) (action : CompileM α) (other : CompileM β) : Prop :=
  ∀ ⦃off on offAfter onAfter value valueToo⦄, Abreast off on →
    action.runOn off = (.ok value, offAfter) → other.runOn on = (.ok valueToo, onAfter) →
    related value valueToo ∧ Abreast offAfter onAfter

namespace Parallel

variable {related : α → β → Prop} {continued : γ → δ → Prop} {action : CompileM α}
  {other : CompileM β}

theorem pure {value : α} {valueToo : β} (same : related value valueToo) :
    Parallel related (Pure.pure value) (Pure.pure valueToo) := by
  intro off on offAfter onAfter _ _ abreast ran ranToo
  obtain ⟨isValue, rfl⟩ := Prod.mk.inj ran
  obtain ⟨isValueToo, rfl⟩ := Prod.mk.inj ranToo
  obtain rfl := Except.ok.inj isValue
  obtain rfl := Except.ok.inj isValueToo
  exact ⟨same, abreast⟩

theorem bind {next : α → CompileM γ} {nextToo : β → CompileM δ}
    (first : Parallel related action other)
    (more : ∀ value valueToo, related value valueToo →
      Parallel continued (next value) (nextToo valueToo)) :
    Parallel continued (action >>= next) (other >>= nextToo) := by
  intro off on offAfter onAfter value valueToo abreast ran ranToo
  obtain ⟨one, middle, ranFirst, ranNext⟩ := CompileM.runOn_bind_eq_ok.mp ran
  obtain ⟨two, middleToo, ranFirstToo, ranNextToo⟩ := CompileM.runOn_bind_eq_ok.mp ranToo
  obtain ⟨same, abreastThen⟩ := first abreast ranFirst ranFirstToo
  exact more one two same abreastThen ranNext ranNextToo

theorem ask {query : Registry → Except SchemaError α} {queryToo : Registry → Except SchemaError β}
    (answers : ∀ {base plain backed : Registry} {first second : String → Additions},
      base.Backed plain backed first second → ∀ value valueToo, query plain = .ok value →
        queryToo backed = .ok valueToo → related value valueToo) :
    Parallel related (ask query) (ask queryToo) := by
  intro off on offAfter onAfter value valueToo abreast ran ranToo
  obtain ⟨asked, rfl⟩ := Prod.mk.inj ran
  obtain ⟨askedToo, rfl⟩ := Prod.mk.inj ranToo
  obtain ⟨base, first, second, backs⟩ := abreast.registries
  exact ⟨answers backs _ _ asked askedToo, abreast⟩

theorem within {context : String} (steps : Parallel related action other) :
    Parallel related (within context action) (within context other) := by
  intro off on offAfter onAfter value valueToo abreast ran ranToo
  rw [CompileM.runOn_within, Prod.mk.injEq, inContext_eq_ok] at ran ranToo
  exact steps abreast (Prod.ext ran.1 ran.2) (Prod.ext ranToo.1 ranToo.2)

end Parallel

variable {name property target owning column : String} {nullable : Option Bool}

/-- Ensuring a foreign key keeps runs side by side. -/
theorem parallel_addForeignKey : Parallel (· = ·) (addForeignKey target owning column nullable)
    (addForeignKey target owning column nullable) := by
  intro off on offAfter onAfter _ _ abreast ran ranToo
  obtain ⟨ensured, sameTables⟩ := addForeignKey_eq_ok.mp ran
  obtain ⟨ensuredToo, sameTablesToo⟩ := addForeignKey_eq_ok.mp ranToo
  obtain ⟨base, first, second, backs⟩ := abreast.registries
  have names : ∀ model other, Model.SameButBackrefs model other → model.name = other.name :=
    fun _ _ same => same.name
  obtain ⟨registries, stores⟩ := backs.ensureForeignKey
    (ModelStore.isBuilt_alike names abreast.store target)
    (fun property => ModelStore.hasProperty_alike abreast.store target property) ensured ensuredToo
  refine ⟨rfl, registries, ?_, sameTables.trans (abreast.tables.trans sameTablesToo.symm)⟩
  rcases stores with ⟨same, sameToo⟩ | ⟨property, schema, key, attached, attachedToo⟩
  · rw [same, sameToo]
    exact abreast.store
  · rw [attached, attachedToo]
    exact ModelStore.forall₂_update names abreast.store fun _ _ same => same.addColumn _ _ _

/-- Collecting the same table keeps runs side by side. -/
theorem parallel_addTable (table : AssociationTable) :
    Parallel (· = ·) (addTable table) (addTable table) := by
  intro off on offAfter onAfter _ _ abreast ran ranToo
  have added := addTable_eq_ok.mp ran
  have addedToo := addTable_eq_ok.mp ranToo
  rw [← abreast.tables] at addedToo
  refine ⟨rfl, ?_⟩
  cases found : off.tables.find? fun existing => existing.name = table.name with
  | none =>
    rw [found] at added addedToo
    obtain rfl := added
    obtain rfl := addedToo
    exact ⟨abreast.registries, abreast.store, by rw [abreast.tables]⟩
  | some existing =>
    rw [found] at added addedToo
    obtain ⟨-, rfl⟩ := added
    obtain ⟨-, rfl⟩ := addedToo
    exact abreast

theorem parallel_link (name : String) (relationship : Relationship) :
    Parallel (· = ·) (link name relationship) (link name relationship) := by
  unfold link
  cases relationship.cardinality with
  | manyToMany secondary =>
    refine Parallel.bind
      (.ask fun backs _ _ found foundToo => backs.association found foundToo) ?_
    rintro table _ rfl
    exact parallel_addTable table
  | oneToMany => exact parallel_addForeignKey
  | manyToOne => exact parallel_addForeignKey
  | oneToOne => exact parallel_addForeignKey

/-- Linking the properties of an entity gathers the same relationships in both runs. -/
theorem parallel_linkProperties {properties : Keyed Json}
    (whole : ∀ field ∈ properties, field.2.isWellKeyed = true) :
    Parallel (· = ·) (linkProperties name properties) (linkProperties name properties) := by
  induction properties with
  | nil => exact .pure rfl
  | cons field rest ih =>
    obtain ⟨property, schema⟩ := field
    obtain ⟨here, later⟩ := List.forall_mem_cons.mp whole
    have gathers : Parallel (· = ·)
        (within property (ask fun registry => registry.gather? property schema))
        (within property (ask fun registry => registry.gather? property schema)) := by
      refine .within (.ask fun backs gathered other found foundToo => ?_)
      rw [backs.gather? property here] at foundToo
      exact Except.ok.inj (found.symm.trans foundToo)
    refine gathers.bind ?_
    rintro gathered _ rfl
    cases gathered with
    | none => exact ih later
    | some relationship =>
      refine (Parallel.within (parallel_link name relationship)).bind fun _ _ _ => ?_
      refine (ih later).bind ?_
      rintro others _ rfl
      exact .pure rfl

/-- The models of an entity in registries of which one has back references as well. -/
theorem model_sameButBackrefs {base plain backed : Registry} {first second : String → Additions}
    (backs : base.Backed plain backed first second) {tablename : String} {parent : Option String}
    {gathered : Keyed Relationship} {own other : Keyed Json} {made madeToo : Model}
    (whole : (Json.obj own).isWellKeyed = true)
    (same : ∀ keyword, keyword ∉ ["type", "x-backrefs"] →
      Keyed.get? own keyword = Keyed.get? other keyword)
    (built : model plain name tablename parent gathered own = .ok made)
    (builtToo : model backed name tablename parent gathered other = .ok madeToo) :
    Model.SameButBackrefs made madeToo := by
  have sameProperties : propertiesOf other = propertiesOf own := by
    rw [propertiesOf, propertiesOf, same "properties" (by decide)]
  have properties : Alike (List.Forall₂ (ModelProperty.SameBut ["x-backrefs"]))
      (propertiesOf own >>= modelProperties plain (requiredOf own) gathered)
      (propertiesOf other >>= modelProperties backed (requiredOf own) gathered) := by
    rw [sameProperties]
    refine (Alike.refl _).bind_of_eq fun declared _ isDeclared sameDeclared => ?_
    subst sameDeclared
    obtain rfl := propertiesOf_eq_ok isDeclared
    exact modelProperties_sameBut (by simp) backs.flatten fun _ =>
      Registry.isWellKeyed_of_mem_propertiesIn whole
  have fewer : ["type", "x-backrefs"] ⊆ ["type", "properties", "x-backrefs"] := by simp
  have silent : ∀ keyword, keyword ∉ ["type", "properties", "x-backrefs"] →
      Keyed.get? other keyword = Keyed.get? own keyword := fun keyword notExcepted =>
    (same keyword fun member => notExcepted (fewer member)).symm
  obtain ⟨-, sameDeclared, isMade⟩ := (model_alike silent properties).related_of_ok built builtToo
  exact ⟨sameDeclared, by rw [isMade]⟩

variable {config configToo : Config} {off on offAfter onAfter : Compilation}

/-- What is left to do for an entity with a table, in both runs. -/
theorem parallel_linkedModel {base : Registry} {first second : String → Additions} {schema : Json}
    {tablename : String} {own other : Registry.OwnSchema} {made madeToo : Option Model}
    (abreast : Abreast off on) (backs : base.Backed off.registry on.registry first second)
    (registered : base.get? name = some schema)
    (ownFound : off.registry.ownSchema name ((first name).apply schema) = .ok own)
    (otherFound : on.registry.ownSchema name ((second name).apply schema) = .ok other)
    (linked : (linkedModel name tablename ((first name).apply schema) own).runOn off =
      (.ok made, offAfter))
    (linkedToo : (linkedModel name tablename ((second name).apply schema) other).runOn on =
      (.ok madeToo, onAfter)) :
    Option.Rel Model.SameButBackrefs made madeToo ∧ Abreast offAfter onAfter := by
  obtain ⟨properties, gathered, flat, model, isDeclared, linkedAll, flattened, built, rfl⟩ :=
    linkedModel_eq_ok.mp linked
  obtain ⟨propertiesToo, gatheredToo, flatToo, modelToo, isDeclaredToo, linkedAllToo, flattenedToo,
    builtToo, rfl⟩ := linkedModel_eq_ok.mp linkedToo
  obtain ⟨sameParent, -, -, sameOwn⟩ :=
    (backs.ownSchema registered).related_of_ok ownFound otherFound
  have sameProperties : propertiesOf other.fields = propertiesOf own.fields := by
    rw [propertiesOf, propertiesOf, sameOwn "properties" (by decide)]
  obtain rfl := Except.ok.inj (isDeclaredToo.symm.trans (sameProperties.trans isDeclared))
  have entry : off.registry.get? name = some ((first name).apply schema) := by
    rw [backs.dressesPlain.get?, registered, Option.map_some]
  have whole : ∀ field ∈ propertiesToo, field.2.isWellKeyed = true := by
    rw [propertiesOf_eq_ok isDeclared]
    exact Registry.isWellKeyed_of_declared backs.plainKeyed entry ownFound
  obtain ⟨sameGathered, abreastThen⟩ :=
    parallel_linkProperties whole abreast linkedAll linkedAllToo
  subst sameGathered
  refine ⟨.some ?_, abreastThen⟩
  -- the entity is there still, so its schema is flattened as it is by then
  have steps : Steps [] off offAfter := (linkProperties_moves name _).steps linkedAll
  have isThere : name ∈ offAfter.registry.names :=
    Registry.names_of_steps steps ▸ Keyed.mem_keys_of_get? entry
  obtain ⟨base, first, second, backs⟩ := abreastThen.registries
  rcases backs.get?_eq name with ⟨-, absent, -⟩ | ⟨schema, registered, entryThen, entryThenToo⟩
  · exact absurd isThere ((Keyed.get?_eq_none_iff _ _).mp absent)
  rw [entryThen, Option.getD_some] at flattened
  rw [entryThenToo, Option.getD_some] at flattenedToo
  rw [← sameParent] at flattenedToo builtToo
  obtain ⟨-, -, -, same⟩ := (backs.flattenEntry registered).related_of_ok flattened flattenedToo
  exact model_sameButBackrefs backs (backs.isWellKeyed_of_flatten entryThen flattened) same built
    builtToo

/-- An entity is compiled to the same model in both runs, back references aside, or to none. -/
theorem parallel_compileEntity : Parallel (Option.Rel Model.SameButBackrefs)
    (compileEntity config name) (compileEntity configToo name) := by
  intro off on offAfter onAfter made madeToo abreast ran ranToo
  obtain ⟨base, first, second, backs⟩ := abreast.registries
  rcases compileEntity_eq_ok.mp ran with ⟨absent, rfl, rfl⟩ |
    ⟨schema, own, tablename, registered, ownFound, named, compiled⟩
  all_goals
    rcases compileEntity_eq_ok.mp ranToo with ⟨absentToo, rfl, rfl⟩ |
      ⟨schemaToo, other, tablenameToo, registeredToo, otherFound, namedToo, compiledToo⟩
  · exact ⟨.none, abreast⟩
  all_goals
    rcases backs.get?_eq name with ⟨-, notPlain, notBacked⟩ | ⟨original, inBase, inPlain, inBacked⟩
  · cases notBacked.symm.trans registeredToo
  · cases inPlain.symm.trans absent
  · cases notPlain.symm.trans registered
  · cases inBacked.symm.trans absentToo
  · cases notPlain.symm.trans registered
  obtain rfl := Option.some.inj (inPlain.symm.trans registered)
  obtain rfl := Option.some.inj (inBacked.symm.trans registeredToo)
  obtain ⟨-, -, -, same⟩ := (backs.ownSchema inBase).related_of_ok ownFound otherFound
  have sameTable : own.keywords.tablename? = other.keywords.tablename? :=
    KeywordReader.as_congr (same "x-tablename" (by decide))
  obtain rfl := Except.ok.inj (named.symm.trans (sameTable.trans namedToo))
  cases tablename with
  | none =>
    obtain ⟨rfl, rfl⟩ := compiled
    obtain ⟨rfl, rfl⟩ := compiledToo
    exact ⟨.none, abreast⟩
  | some tablename =>
    exact parallel_linkedModel abreast backs inBase ownFound otherFound compiled.2 compiledToo.2

/-- Compiling the same entities in both runs keeps them side by side. -/
theorem parallel_compileEntities (names : List String) : Parallel (· = ·)
    (compileEntities config names) (compileEntities configToo names) := by
  induction names with
  | nil => exact .pure rfl
  | cons name rest ih =>
    intro off on offAfter onAfter _ _ abreast ran ranToo
    obtain ⟨made, middle, compiled, others⟩ := compileEntities_cons_eq_ok.mp ran
    obtain ⟨madeToo, middleToo, compiledToo, othersToo⟩ := compileEntities_cons_eq_ok.mp ranToo
    obtain ⟨same, abreastThen⟩ := parallel_compileEntity abreast compiled compiledToo
    exact ih (abreastThen.record same) others othersToo

end Compilation

namespace Registry

variable {registry base next : Registry} {groups : BackrefGroups} {additions : String → Additions}

/-- A registry and what it is after back references have been added. -/
theorem BackrefPass.backed (pass : base.BackrefPass groups additions next) (keyed : base.WellKeyed)
    (references : base.RefersLocally) : base.Backed base next (fun _ => .nothing) additions where
  keyed := keyed
  plainKeyed := keyed
  dressesPlain := .refl base
  dressesBacked := pass.dresses
  keys name := (pass.noKeys name).symm
  bare _ := rfl
  objects name schema isSome registered := by
    have member : name ∈ Keyed.keys groups := by
      by_contra notMember
      exact isSome (by rw [pass.outside name notMember]; rfl)
    exact .of_isObjectEntity references (isObjectEntity_of_mem references pass.found member)
      registered

open Compilation in
/-- Adding back references interferes with nothing but back references: if a registry compiles with
them and without them, the models are the same, in their order, except for their back references
and those in the schemas that they record for columns; and the association tables are the same. -/
theorem compile_processBackrefs {config : Config} {plain backed : CompiledSchema}
    (keyed : registry.WellKeyed) (references : registry.RefersLocally)
    (off : (registry.compile { config with processBackrefs := false }).1 = .ok plain)
    (on : (registry.compile { config with processBackrefs := true }).1 = .ok backed) :
    List.Forall₂ Model.SameButBackrefs plain.models backed.models ∧
      plain.associationTables = backed.associationTables := by
  obtain ⟨-, after, ran, rfl, -⟩ := compile_eq_ok_iff.mp (Prod.ext off rfl)
  obtain ⟨added, afterToo, ranToo, rfl, -⟩ := compile_eq_ok_iff.mp (Prod.ext on rfl)
  have preparedOff : prepared { config with processBackrefs := false } registry =
      (.ok (), start (placed config registry)) := rfl
  have preparedOn : prepared { config with processBackrefs := true } registry =
      ((placed config registry).addAllBackrefs.2,
        start (placed config registry).addAllBackrefs.1) := rfl
  rw [preparedOff] at ran
  rw [preparedOn] at added ranToo
  have keyedPlaced := wellKeyed_placed keyed config
  have referencesPlaced := refersLocally_placed references config
  obtain ⟨groups, additions, pass⟩ := backrefPass_of_addAllBackrefs referencesPlaced
    (Prod.ext rfl added)
  have abreast : Abreast (start (placed config registry))
      (start (placed config registry).addAllBackrefs.1) :=
    ⟨⟨_, _, _, pass.backed keyedPlaced referencesPlaced⟩, .nil, rfl⟩
  have sameNames : (start (placed config registry).addAllBackrefs.1).registry.names =
      (start (placed config registry)).registry.names := pass.names
  rw [sameNames] at ranToo
  obtain ⟨-, abreastThen⟩ := parallel_compileEntities _ abreast ran ranToo
  exact ⟨abreastThen.store, abreastThen.tables⟩

/-- Employees know their division, and keep a snapshot of it in a column. -/
def company : Registry where
  entries := [
    ("Division", .obj [("type", .str "object"), ("x-tablename", .str "division"),
      ("properties", .obj [
        ("id", .obj [("type", .str "integer"), ("x-primary-key", .bool true)])])]),
    ("Employee", .obj [("type", .str "object"), ("x-tablename", .str "employee"),
      ("properties", .obj [
        ("id", .obj [("type", .str "integer"), ("x-primary-key", .bool true)]),
        ("division_id", .obj [("type", .str "integer"), ("x-foreign-key", .str "division.id")]),
        ("division", .obj [("allOf", .arr [.obj [("$ref", .str "#/Division")],
          .obj [("x-backref", .str "employees")]])]),
        ("snapshot", .obj [("allOf", .arr [.obj [("$ref", .str "#/Division")],
          .obj [("x-json", .bool true)]])])])])]
  place := none
  documents := Documents.empty

/-- The back references in the schemas that models record for their properties. -/
def recordedBackrefs (compiled : CompiledSchema) : List (Keyed (Option Json)) :=
  compiled.models.map fun model =>
    model.properties.map fun property => (property.name, property.schema.get? "x-backrefs")

theorem company_keyed : company.WellKeyed := wellKeyed_of_entries (by decide) (by decide +kernel)

/-- Without back references, no schema is recorded with any. -/
theorem company_plain :
    ∃ plain, (company.compile { Config.usual with processBackrefs := false }).1 = .ok plain ∧
      recordedBackrefs plain = [[("id", none)],
        [("id", none), ("division_id", none), ("division", none), ("snapshot", none)]] := by
  refine map_eq_ok.mp ?_
  cbv

/-- With back references, those of the division are recorded for its snapshot. -/
theorem company_backed :
    ∃ backed, (company.compile { Config.usual with processBackrefs := true }).1 = .ok backed ∧
      recordedBackrefs backed = [[("id", none)],
        [("id", none), ("division_id", none), ("division", none), ("snapshot",
          some (.obj [("employees", .obj (Relationship.listSchema "Employee"))]))]] := by
  refine map_eq_ok.mp ?_
  cbv

/-- A company compiles to the same with back references and without them, these aside. -/
theorem compile_processBackrefs_company :
    ∃ plain backed, (company.compile { Config.usual with processBackrefs := false }).1 = .ok plain ∧
      (company.compile { Config.usual with processBackrefs := true }).1 = .ok backed ∧
      List.Forall₂ Model.SameButBackrefs plain.models backed.models ∧
      plain.associationTables = backed.associationTables := by
  obtain ⟨plain, off, -⟩ := company_plain
  obtain ⟨backed, on, -⟩ := company_backed
  exact ⟨plain, backed, off, on, compile_processBackrefs company_keyed (by decide +kernel) off on⟩

/-- Models need not agree in all but their own back references. -/
theorem not_compile_processBackrefs :
    ¬ ∀ (registry : Registry) (config : Config) (plain backed : CompiledSchema),
      registry.WellKeyed → registry.RefersLocally →
      (registry.compile { config with processBackrefs := false }).1 = .ok plain →
      (registry.compile { config with processBackrefs := true }).1 = .ok backed →
      List.Forall₂ (fun model other => other = { model with backrefs := other.backrefs })
          plain.models backed.models ∧
        plain.associationTables = backed.associationTables := by
  intro claimed
  obtain ⟨plain, off, recorded⟩ := company_plain
  obtain ⟨backed, on, recordedToo⟩ := company_backed
  obtain ⟨models, -⟩ := claimed company Config.usual plain backed company_keyed (by decide +kernel)
    off on
  have same : recordedBackrefs plain = recordedBackrefs backed := by
    unfold recordedBackrefs
    generalize plain.models = one at models
    generalize backed.models = two at models
    induction models with
    | nil => rfl
    | cons first _ ih => rw [List.map_cons, List.map_cons, ih, first]
  simp [recorded, recordedToo] at same

end Registry

end EntityMapping
