import Mathlib.Data.List.Forall2
import EntityMapping.SchemaError

/-!
Outcomes of computations that may fail. Two computations are alike if they fail with the same
error, or both succeed with related values. Computations stay alike when they are continued alike.
-/

set_option autoImplicit false
set_option relaxedAutoImplicit false

namespace EntityMapping

variable {α β γ δ : Type}

section Lists

variable {related : α → β → Prop} {items : List α} {others : List β}

theorem exists_of_forall₂_left (each : List.Forall₂ related items others) {item : α}
    (member : item ∈ items) : ∃ other ∈ others, related item other := by
  induction each with
  | nil => simp at member
  | cons first _ ih =>
    rcases List.mem_cons.mp member with rfl | later
    · exact ⟨_, List.mem_cons_self, first⟩
    · obtain ⟨other, inOthers, holds⟩ := ih later
      exact ⟨other, List.mem_cons_of_mem _ inOthers, holds⟩

theorem exists_of_forall₂_right (each : List.Forall₂ related items others) {other : β}
    (member : other ∈ others) : ∃ item ∈ items, related item other := by
  induction each with
  | nil => simp at member
  | cons first _ ih =>
    rcases List.mem_cons.mp member with rfl | later
    · exact ⟨_, List.mem_cons_self, first⟩
    · obtain ⟨item, inItems, holds⟩ := ih later
      exact ⟨item, List.mem_cons_of_mem _ inItems, holds⟩

/-- Two lists that go with one list, place by place, go with each other. -/
theorem forall₂_of_common {relatedToo : α → γ → Prop} {thirds : List γ}
    (each : List.Forall₂ related items others) (eachToo : List.Forall₂ relatedToo items thirds) :
    List.Forall₂ (fun other third => ∃ item ∈ items, related item other ∧ relatedToo item third)
      others thirds := by
  induction each generalizing thirds with
  | nil =>
    cases eachToo
    exact .nil
  | cons here _ ih =>
    cases eachToo with
    | cons hereToo later =>
      refine .cons ⟨_, List.mem_cons_self, here, hereToo⟩ ((ih later).imp ?_)
      rintro other third ⟨item, member, both⟩
      exact ⟨item, List.mem_cons_of_mem _ member, both⟩

/-- What holds of every two items of a list holds of what goes with them, if it is kept that way. -/
theorem pairwise_of_forall₂ {apart : α → α → Prop} {apartToo : β → β → Prop}
    (each : List.Forall₂ related items others) (pairwise : items.Pairwise apart)
    (kept : ∀ {item later other next}, related item other → related later next →
      apart item later → apartToo other next) : others.Pairwise apartToo := by
  induction each with
  | nil => exact .nil
  | cons here rest ih =>
    obtain ⟨first, pairwise⟩ := List.pairwise_cons.mp pairwise
    refine List.pairwise_cons.mpr ⟨fun next member => ?_, ih pairwise⟩
    obtain ⟨later, inRest, both⟩ := exists_of_forall₂_right rest member
    exact kept here both (first later inRest)

end Lists

/-- What remains of a computation once a step of it has succeeded. -/
theorem bind_eq_ok {x : Except SchemaError α} {f : α → Except SchemaError β} {result : β} :
    (x >>= f) = .ok result ↔ ∃ value, x = .ok value ∧ f value = .ok result := by
  cases x with
  | error e => simp [bind, Except.bind]
  | ok value => simp [bind, Except.bind]

@[simp] theorem ok_bind (value : α) (f : α → Except SchemaError β) :
    (Except.ok value >>= f) = f value := rfl

@[simp] theorem error_bind (e : SchemaError) (f : α → Except SchemaError β) :
    (Except.error e >>= f) = .error e := rfl

@[simp] theorem pure_eq_ok (value : α) : (pure value : Except SchemaError α) = .ok value := rfl

theorem bind_congr_of_eq {x : Except SchemaError α} {f g : α → Except SchemaError β}
    (same : ∀ value, x = .ok value → f value = g value) : (x >>= f) = (x >>= g) := by
  cases x with
  | error e => rfl
  | ok value => exact same value rfl

theorem map_eq_ok {x : Except SchemaError α} {f : α → β} {result : β} :
    x.map f = .ok result ↔ ∃ value, x = .ok value ∧ f value = result := by
  cases x <;> simp [Except.map]

theorem inContext_eq_ok {context : String} {result : Except SchemaError α} {value : α} :
    inContext context result = .ok value ↔ result = .ok value := by
  cases result <;> simp [inContext, Except.mapError]

/-- A list of computations succeeds exactly if every one of them does. -/
theorem mapM_eq_ok_iff {f : α → Except SchemaError β} {items : List α} {values : List β} :
    items.mapM f = .ok values ↔
      List.Forall₂ (fun item value => f item = .ok value) items values := by
  induction items generalizing values with
  | nil =>
    simp only [List.mapM_nil, pure_eq_ok, Except.ok.injEq, List.forall₂_nil_left_iff]
    exact eq_comm
  | cons item rest ih =>
    simp only [List.mapM_cons, bind_eq_ok, pure_eq_ok, Except.ok.injEq, List.forall₂_cons_left_iff]
    constructor
    · rintro ⟨value, first, others, later, rfl⟩
      exact ⟨value, others, first, ih.mp later, rfl⟩
    · rintro ⟨value, others, first, later, rfl⟩
      exact ⟨value, first, others, ih.mpr later, rfl⟩

/-- What every one of a list of computations establishes holds of all the values. -/
theorem forall_of_mapM_eq_ok {f : α → Except SchemaError β} {items : List α} {values : List β}
    {holds : β → Prop} (each : ∀ item value, f item = .ok value → holds value)
    (mapped : items.mapM f = .ok values) : ∀ value ∈ values, holds value := by
  have computed := mapM_eq_ok_iff.mp mapped
  clear mapped
  induction computed with
  | nil => simp
  | cons first _ ih => exact List.forall_mem_cons.mpr ⟨each _ _ first, ih⟩

theorem forM_eq_ok_iff {f : α → Except SchemaError PUnit} {items : List α} :
    items.forM f = .ok () ↔ ∀ item ∈ items, f item = .ok () := by
  induction items with
  | nil => exact ⟨by simp, fun _ => rfl⟩
  | cons item rest ih =>
    rw [List.forM_eq_forM, List.forM_cons, bind_eq_ok, List.forall_mem_cons, ← ih,
      List.forM_eq_forM]
    exact ⟨fun ⟨_, here, later⟩ => ⟨here, later⟩, fun ⟨here, later⟩ => ⟨(), here, later⟩⟩

theorem mapM_congr {f g : α → Except SchemaError β} {items : List α}
    (same : ∀ item ∈ items, f item = g item) : items.mapM f = items.mapM g := by
  induction items with
  | nil => rfl
  | cons item rest ih =>
    have later := ih fun other member => same other (List.mem_cons_of_mem _ member)
    rw [List.mapM_cons, List.mapM_cons, same item List.mem_cons_self, later]

theorem optionMapM_eq_some {f : α → Except SchemaError β} {item : Option α} {value : β} :
    item.mapM f = .ok (some value) ↔ ∃ given, item = some given ∧ f given = .ok value := by
  cases item with
  | none => simp
  | some given => cases read : f given <;> simp [Option.mapM_some, read]

/-- A list that is read, and is empty where nothing is given. -/
theorem getD_of_optionMapM {f : α → Except SchemaError (List β)} {item : Option α}
    {found : Option (List β)} (holds : List β → Prop) (absent : holds [])
    (each : ∀ given values, f given = .ok values → holds values)
    (mapped : item.mapM f = .ok found) : holds (found.getD []) := by
  cases found with
  | none => exact absent
  | some values =>
    obtain ⟨given, -, read⟩ := optionMapM_eq_some.mp mapped
    exact each given values read

/-- A list of computations fails as one of them does. -/
theorem exists_of_mapM_eq_error {f : α → Except SchemaError β} {items : List α} {e : SchemaError}
    (failed : items.mapM f = .error e) : ∃ item ∈ items, f item = .error e := by
  induction items with
  | nil => simp at failed
  | cons item rest ih =>
    rw [List.mapM_cons] at failed
    cases first : f item with
    | error other =>
      rw [first, error_bind, Except.error.injEq] at failed
      exact ⟨item, List.mem_cons_self, failed ▸ first⟩
    | ok value =>
      rw [first, ok_bind] at failed
      cases others : rest.mapM f with
      | error other =>
        rw [others, error_bind, Except.error.injEq] at failed
        obtain ⟨later, member, found⟩ := ih (failed ▸ others)
        exact ⟨later, List.mem_cons_of_mem _ member, found⟩
      | ok values => simp [others] at failed

theorem exists_of_findSomeM? {f : α → Except SchemaError (Option β)} {items : List α} {found : β}
    (isFound : items.findSomeM? f = .ok (some found)) :
    ∃ item ∈ items, f item = .ok (some found) := by
  induction items with
  | nil => cases isFound
  | cons item rest ih =>
    rw [List.findSomeM?_cons] at isFound
    obtain ⟨first, here, isFound⟩ := bind_eq_ok.mp isFound
    cases first with
    | none =>
      obtain ⟨other, member, later⟩ := ih isFound
      exact ⟨other, List.mem_cons_of_mem _ member, later⟩
    | some first =>
      obtain rfl := Option.some.inj (Except.ok.inj isFound)
      exact ⟨item, List.mem_cons_self, here⟩

theorem findSomeM?_append {f : α → Except SchemaError (Option β)} (items more : List α) :
    (items ++ more).findSomeM? f = items.findSomeM? f >>= fun found =>
      match found with
      | some value => .ok (some value)
      | none => more.findSomeM? f := by
  induction items with
  | nil => rfl
  | cons item rest ih =>
    rw [List.cons_append, List.findSomeM?_cons, List.findSomeM?_cons, ih, bind_assoc]
    refine bind_congr fun value => ?_
    cases value <;> rfl

/-- A search that fails nowhere finds nothing, or what the first item gives that gives something. -/
theorem findSomeM?_first {f : α → Except SchemaError (Option β)} {items : List α}
    (each : ∀ item ∈ items, ∃ value, f item = .ok value) :
    (items.findSomeM? f = .ok none ∧ ∀ item ∈ items, f item = .ok none) ∨
      ∃ earlier item later found, items = earlier ++ item :: later ∧
        (∀ other ∈ earlier, f other = .ok none) ∧ f item = .ok (some found) ∧
        items.findSomeM? f = .ok (some found) := by
  induction items with
  | nil => exact .inl ⟨rfl, by simp⟩
  | cons item rest ih =>
    obtain ⟨value, here⟩ := each item List.mem_cons_self
    rw [List.findSomeM?_cons, here, ok_bind]
    cases value with
    | some found => exact .inr ⟨[], item, rest, found, rfl, by simp, here, rfl⟩
    | none =>
      rcases ih fun other member => each other (List.mem_cons_of_mem _ member) with
        ⟨nothing, all⟩ | ⟨earlier, other, later, found, rfl, none, there, first⟩
      · exact .inl ⟨nothing, List.forall_mem_cons.mpr ⟨here, all⟩⟩
      · exact .inr ⟨item :: earlier, other, later, found, rfl,
          List.forall_mem_cons.mpr ⟨here, none⟩, there, first⟩

/-- A search that fails nowhere succeeds. -/
theorem findSomeM?_of_forall {f : α → Except SchemaError (Option β)} {items : List α}
    (each : ∀ item ∈ items, ∃ value, f item = .ok value) :
    ∃ value, items.findSomeM? f = .ok value := by
  rcases findSomeM?_first each with ⟨nothing, -⟩ | ⟨_, _, _, found, -, -, -, first⟩
  · exact ⟨none, nothing⟩
  · exact ⟨some found, first⟩

/-- A search finds what the first item gives that gives something. -/
theorem findSomeM?_eq_ok {f : α → Except SchemaError (Option γ)} {g : β → Option γ}
    {items : List α} {others : List β}
    (each : List.Forall₂ (fun item other => f item = .ok (g other)) items others) :
    items.findSomeM? f = .ok (others.findSome? g) := by
  induction each with
  | nil => rfl
  | @cons item other _ _ here _ ih =>
    rw [List.findSomeM?_cons, here, ok_bind, List.findSome?_cons]
    cases g other with
    | none => exact ih
    | some value => rfl

/-- What every step of a fold keeps is kept by the fold. -/
theorem foldlM_eq_ok_induction {f : β → α → Except SchemaError β} {kept : β → Prop}
    {items : List α} {first last : β}
    (step : ∀ state next, ∀ item ∈ items, kept state → f state item = .ok next → kept next)
    (initial : kept first) (folded : items.foldlM f first = .ok last) : kept last := by
  induction items generalizing first with
  | nil => exact Except.ok.inj folded ▸ initial
  | cons item rest ih =>
    rw [List.foldlM_cons] at folded
    obtain ⟨next, one, others⟩ := bind_eq_ok.mp folded
    have keptNext := step first next item List.mem_cons_self initial one
    exact ih (fun state next other member => step state next other (List.mem_cons_of_mem _ member))
      keptNext others

/-- Two computations that fail with the same error, or succeed with related values. -/
inductive Alike (related : α → β → Prop) : Except SchemaError α → Except SchemaError β → Prop
  | ok {a : α} {b : β} (values : related a b) : Alike related (.ok a) (.ok b)
  | error (e : SchemaError) : Alike related (.error e) (.error e)

namespace Alike

variable {related : α → β → Prop} {x : Except SchemaError α} {y : Except SchemaError β}

theorem bind {continued : γ → δ → Prop} {f : α → Except SchemaError γ}
    {g : β → Except SchemaError δ} (first : Alike related x y)
    (next : ∀ a b, related a b → Alike continued (f a) (g b)) :
    Alike continued (x >>= f) (y >>= g) := by
  cases first with
  | ok values => exact next _ _ values
  | error e => exact .error e

/-- Computations that are continued alike, where it counts how the first one succeeded. -/
theorem bind_of_eq {continued : γ → δ → Prop} {f : α → Except SchemaError γ}
    {g : β → Except SchemaError δ} (first : Alike related x y)
    (next : ∀ a b, x = .ok a → related a b → Alike continued (f a) (g b)) :
    Alike continued (x >>= f) (y >>= g) := by
  cases first with
  | ok values => exact next _ _ rfl values
  | error e => exact .error e

/-- A computation that is alike stays so when more is done with it that changes its value alone. -/
theorem bind_right {continued : α → δ → Prop} {g : β → Except SchemaError δ}
    (first : Alike related x y)
    (next : ∀ a b, x = .ok a → related a b → Alike continued (.ok a) (g b)) :
    Alike continued x (y >>= g) := by
  cases first with
  | ok values => exact next _ _ rfl values
  | error e => exact .error e

theorem refl (z : Except SchemaError α) : Alike (· = ·) z z := by
  cases z with
  | ok a => exact .ok rfl
  | error e => exact .error e

theorem of_ok_left {a : α} (same : Alike related (.ok a) y) : ∃ b, y = .ok b ∧ related a b := by
  cases same with
  | ok values => exact ⟨_, rfl, values⟩

theorem of_ok_right {b : β} (same : Alike related x (.ok b)) : ∃ a, x = .ok a ∧ related a b := by
  cases same with
  | ok values => exact ⟨_, rfl, values⟩

/-- What holds of the values where both computations succeed. -/
theorem related_of_ok {a : α} {b : β} (same : Alike related x y) (isOk : x = .ok a)
    (isOkToo : y = .ok b) : related a b := by
  subst isOk isOkToo
  cases same with
  | ok values => exact values

theorem mono {wider : α → β → Prop} (same : Alike related x y)
    (implied : ∀ a b, related a b → wider a b) : Alike wider x y := by
  cases same with
  | ok values => exact .ok (implied _ _ values)
  | error e => exact .error e

theorem map {continued : γ → δ → Prop} {f : α → γ} {g : β → δ} (same : Alike related x y)
    (next : ∀ a b, related a b → continued (f a) (g b)) :
    Alike continued (x.map f) (y.map g) := by
  cases same with
  | ok values => exact .ok (next _ _ values)
  | error e => exact .error e

/-- Computations whose values are changed alike, where it counts how the first one succeeded. -/
theorem map_of_eq {continued : γ → δ → Prop} {f : α → γ} {g : β → δ} (same : Alike related x y)
    (next : ∀ a b, x = .ok a → related a b → continued (f a) (g b)) :
    Alike continued (x.map f) (y.map g) := by
  cases same with
  | ok values => exact .ok (next _ _ rfl values)
  | error e => exact .error e

theorem inContext {context : String} (same : Alike related x y) :
    Alike related (EntityMapping.inContext context x) (EntityMapping.inContext context y) := by
  cases same with
  | ok values => exact .ok values
  | error e => exact .error _

theorem trans {same : α → α → Prop} {first middle last : Except SchemaError α}
    (transitive : ∀ a b c, same a b → same b c → same a c) (one : Alike same first middle)
    (two : Alike same middle last) : Alike same first last := by
  cases one with
  | ok values =>
    cases two with
    | ok others => exact .ok (transitive _ _ _ values others)
  | error e => exact two

theorem and {other : α → β → Prop} (one : Alike related x y) (two : Alike other x y) :
    Alike (fun a b => related a b ∧ other a b) x y := by
  cases one with
  | ok values =>
    cases two with
    | ok others => exact .ok ⟨values, others⟩
  | error e => exact .error e

theorem all {ι : Type} [Nonempty ι] {each : ι → α → β → Prop}
    (same : ∀ i, Alike (each i) x y) : Alike (fun a b => ∀ i, each i a b) x y := by
  cases x with
  | ok a =>
    obtain ⟨b, found, -⟩ := (same (Classical.arbitrary ι)).of_ok_left
    subst found
    refine .ok fun i => ?_
    cases same i with
    | ok values => exact values
  | error e =>
    cases same (Classical.arbitrary ι)
    exact .error e

theorem mapM {f : γ → Except SchemaError α} {g : γ → Except SchemaError β} {items : List γ}
    (each : ∀ item ∈ items, Alike related (f item) (g item)) :
    Alike (List.Forall₂ related) (items.mapM f) (items.mapM g) := by
  induction items with
  | nil => exact .ok .nil
  | cons item rest ih =>
    simp only [List.mapM_cons]
    refine bind (each item List.mem_cons_self) fun a b first => ?_
    refine bind (ih fun other later => each other (List.mem_cons_of_mem _ later)) ?_
    intro as bs others
    exact .ok (.cons first others)

end Alike

/-- Two computations that fail with errors of the same kind, or succeed with related values. -/
inductive AlikeInKind (related : α → β → Prop) :
    Except SchemaError α → Except SchemaError β → Prop
  | ok {a : α} {b : β} (values : related a b) : AlikeInKind related (.ok a) (.ok b)
  | error {e other : SchemaError} (kinds : e.kind = other.kind) :
      AlikeInKind related (.error e) (.error other)

namespace AlikeInKind

variable {related : α → β → Prop} {x : Except SchemaError α} {y : Except SchemaError β}

theorem bind {continued : γ → δ → Prop} {f : α → Except SchemaError γ}
    {g : β → Except SchemaError δ} (first : AlikeInKind related x y)
    (next : ∀ a b, related a b → AlikeInKind continued (f a) (g b)) :
    AlikeInKind continued (x >>= f) (y >>= g) := by
  cases first with
  | ok values => exact next _ _ values
  | error kinds => exact .error kinds

theorem bind_of_eq {continued : γ → δ → Prop} {x : Except SchemaError α}
    {f : α → Except SchemaError γ} {g : α → Except SchemaError δ}
    (next : ∀ a, x = .ok a → AlikeInKind continued (f a) (g a)) :
    AlikeInKind continued (x >>= f) (x >>= g) := by
  cases x with
  | ok a => exact next a rfl
  | error e => exact .error rfl

theorem map {continued : γ → δ → Prop} {f : α → γ} {g : β → δ} (same : AlikeInKind related x y)
    (next : ∀ a b, related a b → continued (f a) (g b)) :
    AlikeInKind continued (x.map f) (y.map g) := by
  cases same with
  | ok values => exact .ok (next _ _ values)
  | error kinds => exact .error kinds

theorem mono {wider : α → β → Prop} (same : AlikeInKind related x y)
    (implied : ∀ a b, related a b → wider a b) : AlikeInKind wider x y := by
  cases same with
  | ok values => exact .ok (implied _ _ values)
  | error kinds => exact .error kinds

theorem of_ok_left {a : α} (same : AlikeInKind related (.ok a) y) :
    ∃ b, y = .ok b ∧ related a b := by
  cases same with
  | ok values => exact ⟨_, rfl, values⟩

theorem of_ok_right {b : β} (same : AlikeInKind related x (.ok b)) :
    ∃ a, x = .ok a ∧ related a b := by
  cases same with
  | ok values => exact ⟨_, rfl, values⟩

/-- Items and what they are changed to are gone through alike if each one is. -/
theorem mapM {f : δ → Except SchemaError α} {g : γ → Except SchemaError β} {change : γ → δ}
    {items : List γ} (each : ∀ item ∈ items, AlikeInKind related (f (change item)) (g item)) :
    AlikeInKind (List.Forall₂ related) ((items.map change).mapM f) (items.mapM g) := by
  induction items with
  | nil => exact .ok .nil
  | cons item rest ih =>
    simp only [List.map_cons, List.mapM_cons]
    refine bind (each item List.mem_cons_self) fun a b first => ?_
    refine bind (ih fun other later => each other (List.mem_cons_of_mem _ later)) ?_
    intro as bs others
    exact .ok (.cons first others)

end AlikeInKind

/-- Computations that fail with equal errors fail with errors of the same kind. -/
theorem Alike.inKind {related : α → β → Prop} {x : Except SchemaError α} {y : Except SchemaError β}
    (same : Alike related x y) : AlikeInKind related x y := by
  cases same with
  | ok values => exact .ok values
  | error e => exact .error rfl

theorem Alike.eq {x y : Except SchemaError α} (same : Alike (· = ·) x y) : x = y := by
  cases same with
  | ok values => rw [values]
  | error e => rfl

end EntityMapping
