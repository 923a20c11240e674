import EntityMapping.Proofs.EndingChains

/-!
A chain of references without an end. From an absolute place, a file in the root that refers to
itself by climbing out of the root leads to names that climb further and further. They all are names
of the file, and a chain recognizes none of them.
-/

set_option autoImplicit false
set_option relaxedAutoImplicit false

namespace EntityMapping

namespace Path

variable {file : Segment} {count : Nat}

/-- The path to a file some directories up. -/
def climbing (count : Nat) (file : Segment) : List Char :=
  render false (List.replicate count up ++ [file])

theorem climbing_eq_join (count : Nat) (file : Segment) :
    climbing count file = Text.join '/' (List.replicate count up ++ [file]) := rfl

theorem climbing_one (file : Segment) : climbing 1 file = '.' :: '.' :: '/' :: file := rfl

theorem areKept_climbing (isKept : IsKept file) (isNamed : file ≠ up) (count : Nat) :
    AreKept false (List.replicate count up ++ [file]).reverse := by
  rw [List.reverse_append, List.reverse_replicate]
  exact ⟨isKept, fun same => absurd same isNamed, areKept_replicate_up count⟩

theorem normalSegments_climbing (isKept : IsKept file) (isNamed : file ≠ up) (count : Nat) :
    normalSegments (climbing count file) = List.replicate count up ++ [file] :=
  normalSegments_render (areKept_climbing isKept isNamed count)

theorem isKept_of_mem_climbing (isKept : IsKept file) :
    ∀ segment ∈ List.replicate count up ++ [file], IsKept segment := by
  simp only [List.forall_mem_append, List.forall_mem_singleton]
  exact ⟨fun segment member => List.eq_of_mem_replicate member ▸ isKept_up, isKept⟩

theorem isAbsolute_climbing (isKept : IsKept file) (count : Nat) :
    isAbsolute (climbing count file) = false :=
  isAbsolute_render (isKept_of_mem_climbing isKept)

theorem normalize_climbing (isKept : IsKept file) (isNamed : file ≠ up) (count : Nat) :
    normalize (climbing count file) = climbing count file := by
  rw [normalize, isAbsolute_climbing isKept, normalSegments_climbing isKept isNamed, climbing]

theorem climbing_injective (isKept : IsKept file) (isNamed : file ≠ up) :
    Function.Injective (climbing · file) := by
  intro one other same
  have segments := congrArg (List.length ∘ normalSegments) same
  simpa [normalSegments_climbing isKept isNamed] using segments

theorem mem_climbing {c : Char} (member : c ∈ climbing count file) :
    c = '/' ∨ c = '.' ∨ c ∈ file := by
  rcases Text.mem_join member with slash | ⟨segment, among, inSegment⟩
  · exact .inl slash
  rcases List.mem_append.mp among with isUp | isFile
  · rw [List.eq_of_mem_replicate isUp] at inSegment
    exact .inr (.inl (by simpa [up] using inSegment))
  · exact .inr (.inr (List.mem_singleton.mp isFile ▸ inSegment))

/-- From an absolute directory, climbing far enough leads to a file in the root. -/
theorem normalize_join_climbing {base : List Char} (absolute : isAbsolute base = true)
    (isKept : IsKept file) (isNamed : file ≠ up) (enough : (normalSegments base).length ≤ count) :
    normalize (join base (climbing count file)) = '/' :: file := by
  have nonempty := ne_nil_of_isAbsolute absolute
  have relative := isAbsolute_climbing isKept count
  have start := areKept_normalSegments base
  rw [normalSegments_eq_walk, List.length_reverse, absolute] at enough
  rw [normalSegments_eq_walk, List.reverse_reverse, absolute] at start
  rw [normalize, normalSegments_eq_walk, isAbsolute_join nonempty relative, absolute,
    walk_join nonempty relative, climbing, walk_render _ _ _ (isKept_of_mem_climbing isKept),
    List.foldl_append, foldl_push_up_root start enough]
  simp [push_named isKept isNamed, render, Text.join]

end Path

namespace Reference

variable {file segment : String} {count : Nat}

/-- The name of a file some directories up. -/
def climbing (count : Nat) (file : String) : String :=
  String.ofList (Path.climbing count file.toList)

theorem isDocument_climbing (isKept : Path.IsKept file.toList) (isNamed : file.toList ≠ Path.up)
    (unmarked : '#' ∉ file.toList) (count : Nat) : IsDocument (climbing count file) := by
  have segments := Path.normalSegments_climbing isKept isNamed count
  rw [isDocument_iff, climbing, String.toList_ofList]
  refine ⟨Path.normalize_climbing isKept isNamed count, fun marked => ?_, ?_, ?_⟩
  · rcases Path.mem_climbing marked with slash | dot | inFile
    · cases slash
    · cases dot
    · exact unmarked inFile
  all_goals
    intro nowhere
    rw [nowhere] at segments
    exact absurd segments.symm (List.append_ne_nil_of_right_ne_nil _ (List.cons_ne_nil _ _))

/-- A reference to a file one directory up climbs one directory more in a document that was found
by climbing. -/
theorem relocateText_climbing (isKept : Path.IsKept file.toList) (isNamed : file.toList ≠ Path.up)
    (unmarked : '#' ∉ file.toList) (count : Nat) (segment : String) :
    relocateText (climbing (count + 1) file) (climbing 1 file ++ within segment) =
      climbing (count + 2) file ++ within segment := by
  have text : (climbing 1 file ++ within segment).toList =
      '.' :: '.' :: '/' :: (file.toList ++ '#' :: '/' :: segment.toList) := by
    rw [toList_append_within, climbing, String.toList_ofList, Path.climbing_one]
    rfl
  have cut : Text.splitOnce? '#' (climbing 1 file ++ within segment).toList =
      some ((climbing 1 file).toList, '/' :: segment.toList) := by
    rw [toList_append_within,
      Text.splitOnce?_append (isDocument_climbing isKept isNamed unmarked 1).unmarked]
  have directory : directoryOf (climbing (count + 1) file).toList =
      Text.join '/' (List.replicate (count + 1) Path.up) := by
    rw [climbing, String.toList_ofList, Path.climbing_eq_join, Text.join_append (by simp) (by simp)]
    exact directoryOf_append isKept.single
  have placed : Text.join '/' (List.replicate (count + 1) Path.up) ++
      '/' :: (climbing 1 file).toList = Path.climbing (count + 2) file.toList := by
    rw [climbing, String.toList_ofList, Path.climbing_eq_join, Path.climbing_eq_join,
      ← Text.join_append (by simp) (by simp), ← List.append_assoc, List.replicate_append_replicate]
  have relative : Path.isAbsolute (climbing 1 file).toList = false := by
    rw [climbing, String.toList_ofList, Path.isAbsolute_climbing isKept]
  have notEmpty : Text.join '/' (List.replicate (count + 1) Path.up) ≠ [] := by
    cases count <;> simp [List.replicate_succ, Text.join, Path.up]
  have notAddress : isAddress (climbing 1 file ++ within segment).toList = false := by
    rw [text]
    rfl
  unfold relocateText
  dsimp only
  rw [if_neg (by simp [text]), notAddress, if_neg (by decide), cut, Option.getD_some, directory,
    relative, decide_eq_false notEmpty, Bool.or_self, if_neg (by decide), placed,
    Path.normalize_climbing isKept isNamed, ← String.toList_inj, toList_append_within]
  simp only [climbing, String.toList_ofList]

end Reference

namespace Registry

open Reference (Spells climbing within isDocument_climbing)

variable {registry : Registry} {place file segment key : String} {count : Nat}

theorem documentPath_climbing (absolute : Path.isAbsolute place.toList = true)
    (isKept : Path.IsKept file.toList) (isNamed : file.toList ≠ Path.up)
    (enough : depth place ≤ count) : documentPath place (climbing count file) = "/" ++ file := by
  have led := Path.normalize_join_climbing ((Path.isAbsolute_directory _).trans absolute) isKept
    isNamed enough
  rw [← String.toList_inj, toList_documentPath, climbing, String.toList_ofList, led]
  simp

theorem keyIn_climbing_injective (isKept : Path.IsKept file.toList)
    (isNamed : file.toList ≠ Path.up) (key : String) :
    Function.Injective fun count => keyIn (climbing count file) key := by
  intro one other same
  refine Path.climbing_injective isKept isNamed ?_
  simpa [keyIn, Reference.key, climbing, ← String.toList_inj] using same

/-- A schema that refers to a key of a file some directories up. -/
def refersUp (count : Nat) (file segment : String) : Json :=
  .obj [("$ref", .str (climbing count file ++ within segment))]

/-- The place of a registry is absolute, and a file in the root has a key that refers to itself by
climbing out of the root. -/
structure ClimbsOut (registry : Registry) (place file segment key : String) : Prop where
  placed : registry.place = some place
  absolute : Path.isAbsolute place.toList = true
  isKept : Path.IsKept file.toList
  isNamed : file.toList ≠ Path.up
  unmarked : '#' ∉ file.toList
  spells : Spells segment key
  nonempty : segment ≠ ""
  found : ∃ entries, registry.documents.find ("/" ++ file) = .ok entries ∧
    Keyed.get? entries key = some (refersUp 1 file segment)

namespace ClimbsOut

variable {hops : Nat} {visited : List String} {name : String}
  (climbsOut : registry.ClimbsOut place file segment key)
  (enough : depth place ≤ count + 1)
include climbsOut

theorem relocate_refersUp (count : Nat) :
    Reference.relocate (climbing (count + 1) file) (refersUp 1 file segment) =
      refersUp (count + 2) file segment := by
  simp [refersUp, Reference.relocate, Reference.relocateFields, Reference.relocateField,
    Reference.relocateText_climbing climbsOut.isKept climbsOut.isNamed climbsOut.unmarked]

theorem isDocument (count : Nat) : Reference.IsDocument (climbing count file) :=
  isDocument_climbing climbsOut.isKept climbsOut.isNamed climbsOut.unmarked count

include enough

theorem opens : ∃ entries, registry.Opens (climbing (count + 1) file) entries ∧
    Keyed.get? entries key = some (refersUp 1 file segment) := by
  obtain ⟨entries, found, refers⟩ := climbsOut.found
  have path := documentPath_climbing climbsOut.absolute climbsOut.isKept climbsOut.isNamed enough
  exact ⟨entries, ⟨place, climbsOut.placed, path ▸ found⟩, refers⟩

theorem flattenFrom_zero (fresh : keyIn (climbing (count + 1) file) key ∉ visited) :
    registry.flattenFrom none 0 visited name (refersUp (count + 1) file segment) =
      .error (.notFound (.endless (climbing (count + 1) file ++ within segment))) := by
  obtain ⟨entries, opens, refers⟩ := climbsOut.opens enough
  rw [refersUp, flattenFrom_reference rfl, flattenTarget_remote opens (climbsOut.isDocument _)
    climbsOut.spells climbsOut.nonempty, if_neg fresh, refers]

/-- A name of the file that a chain has not met leads to one that climbs further. -/
theorem flattenFrom_succ (fresh : keyIn (climbing (count + 1) file) key ∉ visited) :
    registry.flattenFrom none (hops + 1) visited name (refersUp (count + 1) file segment) =
      registry.flattenFrom none hops (visited ++ [keyIn (climbing (count + 1) file) key]) key
        (refersUp (count + 2) file segment) := by
  obtain ⟨entries, opens, refers⟩ := climbsOut.opens enough
  rw [← climbsOut.relocate_refersUp count, refersUp, flattenFrom_reference rfl,
    flattenTarget_remote opens (climbsOut.isDocument _) climbsOut.spells climbsOut.nonempty,
    if_neg fresh, refers]

/-- The chain has no end: however many references may be followed, there is one more. What a chain
has met are names that climb less far than those before it. -/
theorem endless (fresh : ∀ more, count < more → keyIn (climbing more file) key ∉ visited) :
    ∃ text, registry.flattenFrom none hops visited name (refersUp (count + 1) file segment) =
      .error (.notFound (.endless text)) := by
  induction hops generalizing count visited name with
  | zero => exact ⟨_, climbsOut.flattenFrom_zero enough (fresh _ (Nat.lt_succ_self _))⟩
  | succ fewer ih =>
    rw [climbsOut.flattenFrom_succ enough (fresh _ (Nat.lt_succ_self _))]
    refine ih (enough.trans (Nat.le_succ _)) fun more further => ?_
    rw [List.mem_append, List.mem_singleton, not_or]
    refine ⟨fresh more (Nat.lt_of_succ_lt further), fun same => ?_⟩
    exact further.ne' (keyIn_climbing_injective climbsOut.isKept climbsOut.isNamed key same)

end ClimbsOut

/-- A registry in a directory of the root, beside which a file refers to itself by climbing. -/
def tower : Registry where
  entries := []
  place := some "/x/spec.json"
  documents := ⟨FileTree.empty, [("/b.json", ⟨.ok [("A", refersUp 1 "b.json" "A")], false⟩)]⟩

theorem tower_endless : tower.ClimbsOut "/x/spec.json" "b.json" "A" "A" ∧ ∀ hops, ∃ text,
    tower.flattenFrom none hops [] "b" (.obj [("$ref", .str "../b.json#/A")]) =
      .error (.notFound (.endless text)) := by
  have written : climbing 1 "b.json" ++ within "A" = "../b.json#/A" := by decide +kernel
  have path : "/" ++ "b.json" = "/b.json" := by decide +kernel
  have climbsOut : tower.ClimbsOut "/x/spec.json" "b.json" "A" "A" := {
    placed := rfl
    absolute := by decide
    isKept := ⟨by decide, by decide, by decide⟩
    isNamed := by decide
    unmarked := by decide
    spells := ⟨by decide, by decide⟩
    nonempty := by decide
    found := ⟨_, by rw [path]; rfl, rfl⟩ }
  refine ⟨climbsOut, fun hops => ?_⟩
  have endless : ∃ text, tower.flattenFrom none hops [] "b" (refersUp 1 "b.json" "A") =
      .error (.notFound (.endless text)) := climbsOut.endless (by decide) (by simp)
  rwa [refersUp, written] at endless

end Registry

end EntityMapping
