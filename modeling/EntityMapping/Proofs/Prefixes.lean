import EntityMapping.Proofs.Runs

/-!
Where a run stands when it comes to an entity, or to a property of an entity. A run that succeeds is
cut at every entity that it compiles, and at every relationship that it links.
-/

set_option autoImplicit false
set_option relaxedAutoImplicit false

namespace EntityMapping

namespace Compilation

variable {config : Config} {name property : String} {before after : Compilation}

theorem compileEntities_append (config : Config) (first later : List String)
    (before : Compilation) : (compileEntities config (first ++ later)).runOn before =
      match (compileEntities config first).runOn before with
      | (.ok _, middle) => (compileEntities config later).runOn middle
      | (.error e, middle) => (.error e, middle) := by
  induction first generalizing before with
  | nil => rfl
  | cons name rest ih =>
    rw [List.cons_append, compileEntities_cons, compileEntities_cons]
    cases (compileEntity config name).runOn before with
    | mk result middle =>
      cases result with
      | error e => rfl
      | ok model => exact ih _

/-- A run that succeeds comes to every entity of its list, compiles it, and goes on. -/
theorem compileEntities_cut {first later : List String}
    (succeeded : (compileEntities config (first ++ name :: later)).runOn before = (.ok (), after)) :
    ∃ start model done, (compileEntities config first).runOn before = (.ok (), start) ∧
      (compileEntity config name).runOn start = (.ok model, done) ∧
      (compileEntities config later).runOn (done.record model) = (.ok (), after) := by
  rw [compileEntities_append] at succeeded
  cases head : (compileEntities config first).runOn before with
  | mk result start =>
    cases result with
    | error e => simp [head] at succeeded
    | ok _ =>
      rw [head] at succeeded
      obtain ⟨model, done, entity, rest⟩ := compileEntities_cons_eq_ok.mp succeeded
      exact ⟨start, model, done, rfl, entity, rest⟩

/-- What is linked for one property, with the relationship that it is. -/
def linkProperty (name property : String) (schema : Json) : CompileM (Option Relationship) := do
  let gathered ← within property (ask fun registry => registry.gather? property schema)
  match gathered with
  | none => return none
  | some relationship =>
      within property (link name relationship)
      return some relationship

theorem linkProperty_moves {names : List String} (name property : String) (schema : Json) :
    Moves names (linkProperty name property schema) := by
  intro before
  refine Preserves.bind (.within _ (.ask _)) (fun gathered => ?_) before .refl
  cases gathered with
  | none => exact .pure _
  | some relationship =>
    exact .bind (.within _ ((steps_invariant before).link name relationship)) fun _ => .pure _

/-- How a property is linked: it is gathered, and linked if it is a relationship. -/
theorem linkProperty_eq_ok {schema : Json} {found : Option Relationship} :
    (linkProperty name property schema).runOn before = (.ok found, after) ↔
      before.registry.gather? property schema = .ok found ∧
        match found with
        | none => before = after
        | some relationship => (link name relationship).runOn before = (.ok (), after) := by
  unfold linkProperty
  rw [CompileM.runOn_bind_eq_ok]
  constructor
  · rintro ⟨gathered, middle, asked, linked⟩
    simp only [CompileM.runOn_within, CompileM.runOn_ask, Prod.mk.injEq, inContext_eq_ok] at asked
    obtain ⟨isGathered, rfl⟩ := asked
    cases gathered with
    | none =>
      obtain ⟨same, rfl⟩ := Prod.mk.inj linked
      obtain rfl := Except.ok.inj same
      exact ⟨isGathered, rfl⟩
    | some relationship =>
      obtain ⟨done, last, linkedHere, linked⟩ := CompileM.runOn_bind_eq_ok.mp linked
      simp only [CompileM.runOn_pure, Prod.mk.injEq, Except.ok.injEq] at linked
      obtain ⟨rfl, rfl⟩ := linked
      simp only [CompileM.runOn_within, Prod.mk.injEq, inContext_eq_ok] at linkedHere
      exact ⟨isGathered, Prod.ext linkedHere.1 linkedHere.2⟩
  · rintro ⟨isGathered, linked⟩
    refine ⟨found, before, by rw [CompileM.runOn_within, CompileM.runOn_ask, isGathered]; rfl, ?_⟩
    cases found with
    | none => exact Prod.ext rfl linked
    | some relationship =>
      refine CompileM.runOn_bind_eq_ok.mpr ⟨(), after, ?_, rfl⟩
      rw [CompileM.runOn_within, linked]
      rfl

/-- A relationship that is linked was gathered just before. -/
theorem linkProperty_eq_some {schema : Json} {relationship : Relationship}
    (linked : (linkProperty name property schema).runOn before = (.ok (some relationship), after)) :
    before.registry.gather? property schema = .ok (some relationship) ∧
      (link name relationship).runOn before = (.ok (), after) := linkProperty_eq_ok.mp linked

theorem linkProperties_cons (name property : String) (schema : Json) (rest : Keyed Json) :
    linkProperties name ((property, schema) :: rest) =
      linkProperty name property schema >>= fun linked =>
        linkProperties name rest >>= fun others =>
          pure ((linked.map fun relationship => (property, relationship)).toList ++ others) := by
  rw [linkProperties, linkProperty]
  simp only [bind_assoc]
  refine bind_congr fun gathered => ?_
  cases gathered with
  | none => simp
  | some relationship => simp

/-- Properties are linked one after the other. -/
theorem linkProperties_cons_eq_ok {schema : Json} {rest : Keyed Json}
    {gathered : Keyed Relationship} :
    (linkProperties name ((property, schema) :: rest)).runOn before = (.ok gathered, after) ↔
      ∃ found middle others,
        (linkProperty name property schema).runOn before = (.ok found, middle) ∧
        (linkProperties name rest).runOn middle = (.ok others, after) ∧
        gathered = (found.map fun relationship => (property, relationship)).toList ++ others := by
  rw [linkProperties_cons, CompileM.runOn_bind_eq_ok]
  constructor
  · rintro ⟨found, middle, here, linked⟩
    obtain ⟨others, last, later, linked⟩ := CompileM.runOn_bind_eq_ok.mp linked
    simp only [CompileM.runOn_pure, Prod.mk.injEq, Except.ok.injEq] at linked
    obtain ⟨rfl, rfl⟩ := linked
    exact ⟨found, middle, others, here, later, rfl⟩
  · rintro ⟨found, middle, others, here, later, rfl⟩
    exact ⟨found, middle, here, CompileM.runOn_bind_eq_ok.mpr ⟨others, after, later, rfl⟩⟩

/-- How the properties of an entity are linked up to one of them, and from there. -/
theorem linkProperties_cut {first later : Keyed Json} {schema : Json}
    {gathered : Keyed Relationship}
    (succeeded : (linkProperties name (first ++ (property, schema) :: later)).runOn before =
      (.ok gathered, after)) :
    ∃ start linked done some others,
      (linkProperties name first).runOn before = (.ok some, start) ∧
      (linkProperty name property schema).runOn start = (.ok linked, done) ∧
      (linkProperties name later).runOn done = (.ok others, after) ∧
      gathered = some ++ ((linked.map fun relationship => (property, relationship)).toList ++
        others) := by
  induction first generalizing before gathered with
  | nil =>
    obtain ⟨linked, done, others, one, rest, rfl⟩ := linkProperties_cons_eq_ok.mp succeeded
    exact ⟨before, linked, done, [], others, rfl, one, rest, rfl⟩
  | cons entry rest ih =>
    obtain ⟨earlier, value⟩ := entry
    obtain ⟨one, middle, others, first, rest, rfl⟩ := linkProperties_cons_eq_ok.mp succeeded
    obtain ⟨start, linked, done, some, more, before, here, later, rfl⟩ := ih rest
    refine ⟨start, linked, done, _, more, ?_, here, later, (List.append_assoc ..).symm⟩
    exact linkProperties_cons_eq_ok.mpr ⟨one, middle, some, first, before, rfl⟩

end Compilation

end EntityMapping
