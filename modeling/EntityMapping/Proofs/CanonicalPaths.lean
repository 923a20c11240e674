import EntityMapping.Proofs.RelocatedReferences

/-!
Canonical paths. A path is canonical if it has no segment that is empty or stands for the same
directory, and climbs at its beginning only, on a path that is not absolute. These are the paths
that normalizing leaves as they are, and it makes every path one of them. Relative paths are
normalized to the same one exactly if they lead to the same place from every directory: where
directories lead deep enough, under a name that the paths do not use, what is left of them tells how
far a path climbs and what it names.
-/

set_option autoImplicit false
set_option relaxedAutoImplicit false

namespace EntityMapping

namespace Path

variable {absolute : Bool} {kept outer segments : List Segment} {name : Segment}
  {base path other : List Char} {depth : Nat}

/-- A path without the slash by which it begins at the root. -/
def belowRoot (path : List Char) : List Char := if isAbsolute path then path.tail else path

/-- The segments of a path just as they are written between its slashes. Where nothing is written
there are none. -/
def writtenSegments (path : List Char) : List Segment :=
  if belowRoot path = [] then [] else Text.split '/' (belowRoot path)

/-- A path in its canonical form. -/
structure IsCanonical (path : List Char) : Prop where
  /-- No segment is empty or stands for the same directory. -/
  moves : ∀ segment ∈ writtenSegments path, segment ≠ [] ∧ segment ≠ here
  /-- The path climbs before it names anything, and only if it is relative. -/
  climbsFirst : ∃ count names, writtenSegments path = List.replicate count up ++ names ∧
    up ∉ names ∧ (isAbsolute path = true → count = 0)

/-- A path is written from its segments. -/
theorem render_writtenSegments (path : List Char) :
    render (isAbsolute path) (writtenSegments path) = path := by
  have joined : Text.join '/' (writtenSegments path) = belowRoot path := by
    unfold writtenSegments
    split
    · rename_i nothing
      rw [nothing]
      rfl
    · exact Text.join_split '/' _
  rw [render, joined, belowRoot]
  by_cases absolute : isAbsolute path = true
  · rw [if_pos absolute, if_pos absolute]
    obtain ⟨rest, rfl⟩ : ∃ rest, path = '/' :: rest :=
      List.head?_eq_some_iff.mp (of_decide_eq_true absolute)
    rfl
  · rw [if_neg absolute, if_neg absolute]

theorem belowRoot_render (each : ∀ segment ∈ segments, IsKept segment) :
    belowRoot (render absolute segments) = Text.join '/' segments := by
  rw [belowRoot, isAbsolute_render each]
  cases absolute <;> rfl

theorem writtenSegments_render (each : ∀ segment ∈ segments, IsKept segment) :
    writtenSegments (render absolute segments) = segments := by
  rw [writtenSegments, belowRoot_render each]
  cases segments with
  | nil => rfl
  | cons first rest =>
    have cut : Text.split '/' (Text.join '/' (first :: rest)) = first :: rest :=
      Text.split_join (List.cons_ne_nil _ _) fun segment member => (each segment member).single
    have written : Text.join '/' (first :: rest) ≠ [] := by
      intro nothing
      rw [nothing] at cut
      obtain ⟨empty, -⟩ := List.cons.inj cut
      exact (each first List.mem_cons_self).nonempty empty.symm
    rw [if_neg written, cut]

theorem writtenSegments_normalize (path : List Char) :
    writtenSegments (normalize path) = normalSegments path :=
  writtenSegments_render fun _ => isKept_of_mem_normalSegments

theorem single_of_mem_writtenSegments {segment : Segment}
    (member : segment ∈ writtenSegments path) : '/' ∉ segment := by
  unfold writtenSegments at member
  split at member
  · cases member
  · exact Text.not_mem_of_mem_split member

theorem AreKept.up_notMem (areKept : AreKept true kept) : up ∉ kept := by
  induction kept with
  | nil => exact List.not_mem_nil
  | cons segment outer ih =>
    obtain ⟨-, above, later⟩ := areKept
    refine List.not_mem_cons_of_ne_of_not_mem (fun same => ?_) (ih later)
    cases (above same.symm).1

/-- Names are kept above whatever is kept. -/
theorem areKept_append (each : ∀ segment ∈ segments, IsKept segment ∧ segment ≠ up)
    (areKept : AreKept absolute outer) : AreKept absolute (segments ++ outer) := by
  induction segments with
  | nil => exact areKept
  | cons segment rest ih =>
    obtain ⟨⟨isKept, isNamed⟩, later⟩ := List.forall_mem_cons.mp each
    exact ⟨isKept, fun climbs => absurd climbs isNamed, ih later⟩

theorem climbs_of_isAbsolute (absolute : isAbsolute path = true) : climbs path = 0 := by
  have areKept := areKept_normalSegments path
  rw [absolute] at areKept
  exact List.count_eq_zero.mpr (mt List.mem_reverse.mpr areKept.up_notMem)

/-- Normalizing makes a path canonical. -/
theorem isCanonical_normalize (path : List Char) : IsCanonical (normalize path) where
  moves segment member := by
    rw [writtenSegments_normalize] at member
    have isKept := isKept_of_mem_normalSegments member
    exact ⟨isKept.nonempty, isKept.moves⟩
  climbsFirst := by
    refine ⟨climbs path, named path, ?_, fun climbing => (isKept_of_mem_named climbing).2 rfl,
      fun absolute => climbs_of_isAbsolute ((isAbsolute_normalize path).symm.trans absolute)⟩
    rw [writtenSegments_normalize, normalSegments_eq_append]

theorem IsCanonical.areKept (isCanonical : IsCanonical path) :
    AreKept (isAbsolute path) (writtenSegments path).reverse := by
  obtain ⟨moves, count, names, written, noUp, relative⟩ := isCanonical
  have each : ∀ segment ∈ names.reverse, IsKept segment ∧ segment ≠ up := by
    intro segment member
    have inNames := List.mem_reverse.mp member
    have among : segment ∈ writtenSegments path := by
      rw [written]
      exact List.mem_append_right _ inNames
    obtain ⟨nonempty, moves⟩ := moves segment among
    exact ⟨⟨nonempty, moves, single_of_mem_writtenSegments among⟩, fun same => noUp (same ▸ inNames)⟩
  rw [written, List.reverse_append, List.reverse_replicate]
  refine areKept_append each ?_
  cases absolute : isAbsolute path with
  | false => exact areKept_replicate_up count
  | true =>
    rw [relative absolute]
    trivial

/-- Normalizing changes no canonical path, and every other one. -/
theorem normalize_eq_self_iff : normalize path = path ↔ IsCanonical path := by
  constructor
  · intro fixed
    exact fixed ▸ isCanonical_normalize path
  · intro isCanonical
    have segments := normalSegments_render isCanonical.areKept
    rw [render_writtenSegments] at segments
    rw [normalize, segments, render_writtenSegments]

/-- There always is one more name. -/
theorem exists_unused (segments : List Segment) :
    ∃ name, IsKept name ∧ name ≠ up ∧ name ∉ segments := by
  have letters : ∀ c ∈ List.replicate (segments.flatten.length + 1) 'd', c = 'd' :=
    fun _ => List.eq_of_mem_replicate
  generalize long : List.replicate (segments.flatten.length + 1) 'd' = name at letters
  have length : name.length = segments.flatten.length + 1 := by rw [← long, List.length_replicate]
  refine ⟨name, ⟨?_, ?_, ?_⟩, ?_, fun member => ?_⟩
  · rintro rfl
    cases length
  · rintro rfl
    cases letters '.' List.mem_cons_self
  · intro slash
    cases letters '/' slash
  · rintro rfl
    cases letters '.' List.mem_cons_self
  · have shorter := (List.sublist_flatten_of_mem member).length_le
    omega

/-- The absolute directory that leads down under one name only. -/
def shaft (depth : Nat) (name : Segment) : List Char := render true (List.replicate depth name)

/-- What is left of a path from deep enough a directory shows how far it climbs. -/
theorem normalSegments_join_shaft (isKept : IsKept name) (isNamed : name ≠ up)
    (relative : isAbsolute path = false) (enough : climbs path ≤ depth) :
    normalSegments (join (shaft depth name) path) =
      List.replicate (depth - climbs path) name ++ named path := by
  obtain ⟨left, rfl⟩ := Nat.exists_eq_add_of_le enough
  have each : ∀ segment ∈ List.replicate (climbs path + left) name,
      IsKept segment ∧ segment ≠ up :=
    fun segment member => List.eq_of_mem_replicate member ▸ ⟨isKept, isNamed⟩
  have start : (normalSegments (shaft (climbs path + left) name)).reverse =
      List.replicate (climbs path) name ++ List.replicate left name := by
    have areKept : AreKept true (List.replicate (climbs path + left) name).reverse := by
      rw [List.reverse_replicate, ← List.append_nil (List.replicate _ name)]
      exact areKept_append each trivial
    rw [shaft, normalSegments_render areKept, List.reverse_replicate,
      List.replicate_append_replicate]
  have climbed : (List.replicate (climbs path) up).foldl (push true)
      (List.replicate (climbs path) name ++ List.replicate left name) =
        List.replicate left name := by
    have noUp : up ∉ List.replicate (climbs path) name := fun member =>
      isNamed (List.eq_of_mem_replicate member).symm
    calc _
      _ = (List.replicate (List.replicate (climbs path) name).length up).foldl (push true)
            (List.replicate (climbs path) name ++ List.replicate left name) := by
          rw [List.length_replicate]
      _ = List.replicate left name := foldl_push_up_append noUp _
  have nonempty : shaft (climbs path + left) name ≠ [] := List.cons_ne_nil _ _
  have led : (normalSegments (join (shaft (climbs path + left) name) path)).reverse =
      (named path).reverse ++ List.replicate left name :=
    calc _
      _ = (named path).reverse ++ (List.replicate (climbs path) up).foldl (push true)
            (normalSegments (shaft (climbs path + left) name)).reverse :=
          normalSegments_join nonempty relative
      _ = (named path).reverse ++ List.replicate left name := by rw [start, climbed]
  rw [← List.reverse_inj, led, List.reverse_append, List.reverse_replicate,
    Nat.add_sub_cancel_left]

/-- A directory can be found from which relative paths lead to different places, if they are
normalized differently. -/
theorem normalize_eq_of_located (relative : isAbsolute path = false)
    (relativeToo : isAbsolute other = false)
    (same : ∀ base, isAbsolute base = true → located base path = located base other) :
    normalize path = normalize other := by
  obtain ⟨name, isKept, isNamed, unused⟩ := exists_unused (named path ++ named other)
  obtain ⟨unusedHere, unusedThere⟩ := not_or.mp (List.mem_append.not.mp unused)
  have led : List.replicate (climbs path + climbs other - climbs path) name ++ named path =
      List.replicate (climbs path + climbs other - climbs other) name ++ named other := by
    have located := congrArg normalSegments (same (shaft (climbs path + climbs other) name) rfl)
    rwa [Path.located, Path.located, normalSegments_normalize, normalSegments_normalize,
      normalSegments_join_shaft isKept isNamed relative (Nat.le_add_right _ _),
      normalSegments_join_shaft isKept isNamed relativeToo (Nat.le_add_left _ _)] at located
  have sameClimbs : climbs path = climbs other := by
    have counted := congrArg (List.count name) led
    rw [List.count_append, List.count_append, List.count_replicate_self, List.count_replicate_self,
      List.count_eq_zero.mpr unusedHere, List.count_eq_zero.mpr unusedThere] at counted
    omega
  have sameNamed : named path = named other := by
    rw [sameClimbs] at led
    exact List.append_cancel_left led
  rw [normalize, normalize, normalSegments_eq_append, normalSegments_eq_append other, relative,
    relativeToo, sameClimbs, sameNamed]

/-- From every directory, a relative path leads where its normal form leads. -/
theorem located_of_normalize (absolute : isAbsolute base = true)
    (relative : isAbsolute path = false) (relativeToo : isAbsolute other = false)
    (same : normalize path = normalize other) : located base path = located base other := by
  rw [located_eq_render absolute relative, located_eq_render absolute relativeToo,
    ← walk_normalize_of_relative relative, same, walk_normalize_of_relative relativeToo]

/-- A function that finds the canonical form of paths. -/
structure Canonicalizes (normal : List Char → List Char) : Prop where
  /-- Normal forms are left as they are. -/
  fixed : ∀ path, normal (normal path) = normal path
  /-- A path stays absolute, or relative. -/
  absolute : ∀ path, isAbsolute (normal path) = isAbsolute path
  canonical : ∀ path, IsCanonical (normal path)
  /-- No canonical path is changed. -/
  unchanged : ∀ path, IsCanonical path → normal path = path
  /-- Relative paths have the same form exactly if they lead to the same place behind every absolute
  directory. -/
  same : ∀ path other, isAbsolute path = false → isAbsolute other = false →
    (normal path = normal other ↔ ∀ base, isAbsolute base = true →
      normal (base ++ '/' :: path) = normal (base ++ '/' :: other))

/-- Normalizing finds canonical forms. -/
theorem canonicalizes_normalize : Canonicalizes normalize where
  fixed := normalize_normalize
  absolute := isAbsolute_normalize
  canonical := isCanonical_normalize
  unchanged _ := normalize_eq_self_iff.mpr
  same path other relative relativeToo := by
    constructor
    · intro same base absolute
      have nonempty := ne_nil_of_isAbsolute absolute
      rw [normalize_append nonempty relative, normalize_append nonempty relativeToo]
      exact located_of_normalize absolute relative relativeToo same
    · intro same
      refine normalize_eq_of_located relative relativeToo fun base absolute => ?_
      have nonempty := ne_nil_of_isAbsolute absolute
      rw [located, located, ← normalize_append nonempty relative,
        ← normalize_append nonempty relativeToo]
      exact same base absolute

example : normalize "a/./b/../../../c.json".toList = "../c.json".toList := by decide

end Path

end EntityMapping
