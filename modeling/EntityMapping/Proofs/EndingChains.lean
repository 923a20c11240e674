import EntityMapping.Proofs.RelocatedReferences
import EntityMapping.Proofs.RemoteDocuments
import Mathlib.Data.Finset.Prod
import Mathlib.Data.Set.Finite.Basic

/-!
When chains of references end. A chain recognizes a target by the name of its document, and a
document may have many names: one for every number of directories that a name climbs. A name that
climbs above the root leads to the same document as one that climbs to it only, so names may climb
further and further. Where none climbs above the root, or there is no root since the place of the
registry is not absolute, a document has as many names as there are directories to climb and two
more at most. There are no more targets then than the limit allows for, so every chain ends within
the limit.
-/

set_option autoImplicit false
set_option relaxedAutoImplicit false

namespace EntityMapping

namespace Json

mutual

/-- The pointers that lead to the values of a value, to itself included. -/
def pointers : Json → List (List String)
  | .obj fields => [] :: pointersOfFields fields
  | _ => [[]]

def pointersOfFields : List (String × Json) → List (List String)
  | [] => []
  | (key, value) :: rest => (pointers value).map (key :: ·) ++ pointersOfFields rest

end

theorem pointersOfFields_eq_flatMap (fields : Keyed Json) :
    pointersOfFields fields = fields.flatMap fun field => field.2.pointers.map (field.1 :: ·) := by
  induction fields with
  | nil => rfl
  | cons field rest ih => rw [pointersOfFields, ih, List.flatMap_cons]

theorem length_pointers_le (value : Json) : value.pointers.length ≤ value.size := by
  induction value using byParts with
  | scalar value noFields noItems =>
    cases value <;> simp_all [pointers, size, fields?, items?]
  | arr items ih => exact one_le_size _
  | obj fields ih =>
    have each : ∀ field ∈ fields, (field.2.pointers.map (field.1 :: ·)).length ≤ field.2.size :=
      fun field member => (List.length_map _).trans_le (ih field member)
    rw [pointers, List.length_cons, pointersOfFields_eq_flatMap, List.length_flatMap, size,
      sizeOfFields_eq_sum]
    exact Nat.succ_le_succ (List.sum_le_sum each)

end Json

namespace Documents

/-- Where the values of the documents that are found are: the path of a document, and a pointer. -/
def sites (documents : Documents) : List (String × List String) :=
  documents.findings.flatMap fun entry =>
    match entry.2.outcome with
    | .ok root => (Json.obj root).pointers.map (entry.1, ·)
    | .error _ => []

theorem length_sites_le (documents : Documents) : documents.sites.length ≤ documents.size := by
  rw [sites, List.length_flatMap, size_eq_sum]
  refine List.sum_le_sum fun entry _ => ?_
  unfold Finding.weight
  cases entry.2.outcome with
  | ok root =>
    dsimp only
    rw [List.length_map]
    exact (Json.length_pointers_le _).trans (Nat.le_add_left _ _)
  | error cause => exact Nat.zero_le _

end Documents

namespace Registry

open Reference (IsDocument)

variable {registry : Registry} {place one other document text : String} {schema : Json}
  {pointer : List String} {bound : Nat}

/-- A pointer that leads somewhere is one of the pointers of a value. -/
theorem mem_pointers_of_descend {value found : Json}
    (descended : descend text document pointer value = .ok found) : pointer ∈ value.pointers := by
  induction pointer generalizing value with
  | nil => cases value <;> exact List.mem_cons_self
  | cons segment rest ih =>
    rw [descend] at descended
    split at descended
    · rename_i next present
      cases value with
      | obj fields =>
        rw [Json.pointers, Json.pointersOfFields_eq_flatMap]
        refine List.mem_cons_of_mem _ (List.mem_flatMap.mpr ?_)
        exact ⟨_, Keyed.mem_of_get? present, List.mem_map_of_mem (ih descended)⟩
      | _ => cases present
    · cases descended

/-- What a reference leads to is somewhere in a document. -/
theorem mem_sites_of_target {found : String × Json}
    (led : registry.target text (.remote document pointer) = .ok found) :
    ∃ place, registry.place = some place ∧
      (documentPath place document, pointer) ∈ registry.documents.sites := by
  obtain ⟨next, schema⟩ := found
  obtain ⟨place, root, inner, placed, isRoot, descended, -, -⟩ := target_remote_eq_ok.mp led
  obtain ⟨finding, present, outcome⟩ := Documents.find_eq_ok.mp isRoot
  refine ⟨place, placed, List.mem_flatMap.mpr ⟨_, Keyed.mem_of_get? present, ?_⟩⟩
  dsimp only
  rw [outcome]
  exact List.mem_map_of_mem (mem_pointers_of_descend descended)

/-! ### The names of a document -/

theorem toList_documentPath (place document : String) : (documentPath place document).toList =
    Path.normalize (Path.join (Path.directory place.toList) document.toList) := by
  simp [documentPath]

/-- How many segments lead to the directory of a place. -/
def depth (place : String) : Nat := (Path.normalSegments (Path.directory place.toList)).length

/-- A document is found under its name if the name is absolute, or the place is in the directory
where names start. -/
theorem documentPath_of_not_below (isDocument : IsDocument document) (notBelow :
    Path.isAbsolute document.toList = true ∨ Path.directory place.toList = []) :
    documentPath place document = document := by
  rw [← String.toList_inj, toList_documentPath, Path.join_of_not_below notBelow,
    isDocument.normalize_toList]

/-- Otherwise the path is walked from the directory of the place: it is climbed out of first. -/
theorem normalSegments_documentPath (relative : Path.isAbsolute document.toList = false)
    (below : Path.directory place.toList ≠ []) :
    (Path.normalSegments (documentPath place document).toList).reverse =
      (Path.named document.toList).reverse ++
        (List.replicate (Path.climbs document.toList) Path.up).foldl
          (Path.push (Path.isAbsolute place.toList))
          (Path.normalSegments (Path.directory place.toList)).reverse := by
  rw [toList_documentPath, Path.normalSegments_normalize, Path.normalSegments_join below relative,
    Path.isAbsolute_directory]

/-- The name of a document is told by where the document is found and how far the name climbs. -/
theorem documentPath_injective (isDocument : IsDocument one) (isDocumentToo : IsDocument other)
    (relative : Path.isAbsolute one.toList = false)
    (relativeToo : Path.isAbsolute other.toList = false)
    (sameClimbs : Path.climbs one.toList = Path.climbs other.toList)
    (samePath : documentPath place one = documentPath place other) : one = other := by
  by_cases start : Path.directory place.toList = []
  · rwa [documentPath_of_not_below isDocument (.inr start),
      documentPath_of_not_below isDocumentToo (.inr start)] at samePath
  have sameNamed : Path.named one.toList = Path.named other.toList := by
    have walked := normalSegments_documentPath relative start
    rw [samePath, normalSegments_documentPath relativeToo start, sameClimbs,
      List.append_left_inj, List.reverse_inj] at walked
    exact walked.symm
  rw [← String.toList_inj, ← isDocument.normalize_toList, ← isDocumentToo.normalize_toList,
    Path.normalize, Path.normalize, Path.normalSegments_eq_append, Path.normalSegments_eq_append,
    relative, relativeToo, sameClimbs, sameNamed]

/-- From a place that is not absolute, a name that climbs out of the directory of the place climbs
as far as it is told by where the document is found. -/
theorem climbs_documentPath (isDocument : IsDocument document)
    (relative : Path.isAbsolute document.toList = false)
    (noRoot : Path.isAbsolute place.toList = false)
    (out : depth place ≤ Path.climbs document.toList) :
    Path.climbs (documentPath place document).toList + depth place =
      Path.climbs document.toList + 2 * Path.climbs (Path.directory place.toList) := by
  by_cases start : Path.directory place.toList = []
  · rw [documentPath_of_not_below isDocument (.inr start), depth, start]
    rfl
  have kept := Path.areKept_normalSegments (Path.directory place.toList)
  rw [Path.isAbsolute_directory, noRoot] at kept
  have enough : (Path.normalSegments (Path.directory place.toList)).reverse.length ≤
      Path.climbs document.toList := (List.length_reverse).trans_le out
  have counted := Path.count_foldl_push_up kept enough
  have noUp : (Path.named document.toList).reverse.count Path.up = 0 :=
    List.count_eq_zero.mpr fun member =>
      (Path.isKept_of_mem_named (List.mem_reverse.mp member)).2 rfl
  rw [List.length_reverse, List.count_reverse] at counted
  rw [Path.climbs, ← List.count_reverse, normalSegments_documentPath relative start,
    noRoot, List.count_append, noUp, Nat.zero_add]
  exact counted

/-- How a name leads to a document: it is absolute, or climbs, as far as a bound or further. -/
def rise (bound : Nat) (document : String) : Nat :=
  if Path.isAbsolute document.toList then bound + 1 else min (Path.climbs document.toList) bound

theorem rise_lt (bound : Nat) (document : String) : rise bound document < bound + 2 := by
  unfold rise
  split <;> omega

/-- The name of a document is told by where the document is found and how the name leads there,
unless it climbs above the root. -/
theorem eq_of_rise (isDocument : IsDocument one) (isDocumentToo : IsDocument other)
    (deep : depth place ≤ bound)
    (climbs : Path.isAbsolute place.toList = true → Path.climbs one.toList ≤ bound)
    (climbsToo : Path.isAbsolute place.toList = true → Path.climbs other.toList ≤ bound)
    (samePath : documentPath place one = documentPath place other)
    (sameRise : rise bound one = rise bound other) : one = other := by
  unfold rise at sameRise
  cases absolute : Path.isAbsolute one.toList with
  | true =>
    have absoluteToo : Path.isAbsolute other.toList = true := by
      by_contra relative
      rw [if_pos absolute, if_neg relative] at sameRise
      omega
    rwa [documentPath_of_not_below isDocument (.inl absolute),
      documentPath_of_not_below isDocumentToo (.inl absoluteToo)] at samePath
  | false =>
    have relativeToo : Path.isAbsolute other.toList = false := by
      by_contra absoluteToo
      rw [if_neg (by simp [absolute]), if_pos (by simpa using absoluteToo)] at sameRise
      omega
    rw [if_neg (by simp [absolute]), if_neg (by simp [relativeToo])] at sameRise
    refine documentPath_injective isDocument isDocumentToo absolute relativeToo ?_ samePath
    cases rooted : Path.isAbsolute place.toList with
    | true =>
      rwa [min_eq_left (climbs rooted), min_eq_left (climbsToo rooted)] at sameRise
    | false =>
      have told := climbs_documentPath isDocument absolute rooted
      have toldToo := climbs_documentPath isDocumentToo relativeToo rooted
      rw [samePath] at told
      omega

/-! ### The limit -/

/-- The names of the documents that a schema is composed of do not climb further than some bound
from an absolute place, nor is the place deeper than that. -/
structure ClimbsWithin (registry : Registry) (bound : Nat) (schema : Json) : Prop where
  deep : ∀ place, registry.place = some place → depth place ≤ bound
  climbs : ∀ place, registry.place = some place → Path.isAbsolute place.toList = true →
    ∀ text document pointer, registry.ReachesReference schema text →
      Reference.parse text = .ok (.remote document pointer) →
      Path.climbs document.toList ≤ bound

theorem descend_endsAlike (text document : String) (pointer : List String) (value : Json) :
    EndsAlike (descend text document pointer value) (descend text document pointer value) := by
  induction pointer generalizing value with
  | nil => exact .ok value
  | cons segment rest ih =>
    unfold descend
    split
    · exact ih _
    · exact .error rfl

/-- No reading of a document says that a chain of references has no end. -/
def ReadsDocuments (registry : Registry) : Prop :=
  ∀ path text, registry.documents.find path ≠ .error (.endless text)

theorem target_endsAlike (reads : registry.ReadsDocuments) (text : String) (parsed : Reference) :
    EndsAlike (registry.target text parsed) (registry.target text parsed) := by
  unfold target
  cases parsed with
  | entity name =>
    dsimp only
    cases registry.get? name with
    | none => exact .error rfl
    | some schema => exact .ok _
  | remote document pointer =>
    dsimp only
    cases registry.place with
    | none => exact .error rfl
    | some place =>
      have found : EndsAlike
          ((registry.documents.find (documentPath place document)).mapError SchemaError.notFound)
          ((registry.documents.find (documentPath place document)).mapError
            SchemaError.notFound) := by
        refine ⟨rfl, fun other failed => ?_⟩
        cases outcome : registry.documents.find (documentPath place document) with
        | ok root => simp [outcome, Except.mapError] at failed
        | error cause =>
          simp [outcome, Except.mapError] at failed
          exact reads _ _ (failed ▸ outcome)
      exact found.bind fun root _ => (descend_endsAlike text document pointer _).bind
        fun _ _ => .ok _

/-- The targets that the references of a schema lead to have no more keys than there are entities,
and values in documents, these once for every name of their document. -/
theorem exists_reachesAlike (reads : registry.ReadsDocuments)
    (within : registry.ClimbsWithin bound schema) :
    ∃ keys, keys.length ≤ registry.entries.length + registry.documents.size * (bound + 2) ∧
      ReachesAlike registry registry keys schema := by
  let Reached (named : String × List String) : Prop := ∃ text found,
    registry.ReachesReference schema text ∧
      Reference.parse text = .ok (.remote named.1 named.2) ∧
      registry.target text (.remote named.1 named.2) = .ok found
  let told (named : String × List String) : (String × List String) × Nat :=
    ((documentPath (registry.place.getD "") named.1, named.2), rise bound named.1)
  let all : Finset ((String × List String) × Nat) :=
    registry.documents.sites.toFinset ×ˢ Finset.range (bound + 2)
  have maps : Set.MapsTo told {named | Reached named} ↑all := by
    rintro ⟨document, pointer⟩ ⟨text, found, -, -, led⟩
    obtain ⟨place, placed, site⟩ := mem_sites_of_target led
    simpa [told, all, placed, rise_lt] using site
  have injective : Set.InjOn told {named | Reached named} := by
    rintro ⟨document, pointer⟩ ⟨text, found, reached, parse, led⟩
      ⟨others, pointerToo⟩ ⟨textToo, foundToo, reachedToo, parseToo, -⟩ same
    obtain ⟨place, placed, -⟩ := mem_sites_of_target led
    simp only [told, placed, Option.getD_some, Prod.mk.injEq] at same
    obtain ⟨⟨samePath, rfl⟩, sameRise⟩ := same
    refine Prod.ext ?_ rfl
    exact eq_of_rise ⟨text, pointer, parse⟩ ⟨textToo, pointer, parseToo⟩
      (within.deep place placed)
      (fun rooted => within.climbs place placed rooted _ _ _ reached parse)
      (fun rooted => within.climbs place placed rooted _ _ _ reachedToo parseToo) samePath sameRise
  have finite := Set.Finite.of_injOn maps injective all.finite_toSet
  let keyed : Finset String := finite.toFinset.image fun named =>
    (Reference.remote named.1 named.2).key
  have few : keyed.card ≤ registry.documents.size * (bound + 2) := by
    calc keyed.card
      _ ≤ finite.toFinset.card := Finset.card_image_le
      _ ≤ all.card :=
        Finset.card_le_card_of_injOn told (by simpa using maps) (by simpa using injective)
      _ = registry.documents.sites.toFinset.card * (bound + 2) := by
        rw [Finset.card_product, Finset.card_range]
      _ ≤ registry.documents.size * (bound + 2) := Nat.mul_le_mul_right _
        ((List.toFinset_card_le _).trans registry.documents.length_sites_le)
  refine ⟨registry.names ++ keyed.toList, ?_, fun text parsed _ _ =>
    target_endsAlike reads text parsed, fun text parsed found reached parse led => ?_⟩
  · rw [List.length_append, Finset.length_toList]
    exact Nat.add_le_add (List.length_map _).le few
  rw [List.mem_append, Finset.mem_toList]
  cases parsed with
  | entity name =>
    obtain ⟨next, schema⟩ := found
    exact .inl (Keyed.mem_keys_of_get? (target_entity_eq_ok.mp led).2)
  | remote document pointer =>
    refine .inr (Finset.mem_image.mpr ⟨(document, pointer), ?_, rfl⟩)
    exact finite.mem_toFinset.mpr ⟨text, found, reached, parse, led⟩

/-- Every chain of references ends, unless the place of the registry is absolute and names of
documents climb further and further. Flattening and effective keywords come to the same for any
number of references that may be followed, from some number on. -/
theorem chains_end (reads : registry.ReadsDocuments) (within : registry.ClimbsWithin bound schema)
    {hops more : Nat}
    (enough : registry.entries.length + registry.documents.size * (bound + 2) ≤ hops)
    (enoughToo : registry.entries.length + registry.documents.size * (bound + 2) ≤ more)
    (skip : Option String) (name keyword : String) :
    EndsAlike (registry.flattenFrom skip hops [] name schema)
      (registry.flattenFrom skip more [] name schema) ∧
    EndsAlike (registry.effectiveFrom skip keyword hops [] schema)
      (registry.effectiveFrom skip keyword more [] schema) := by
  obtain ⟨keys, few, reaches⟩ := exists_reachesAlike reads within
  exact ⟨reaches.flattenFrom (.start (few.trans enough)) (.start (few.trans enoughToo)),
    reaches.effectiveFrom (.start (few.trans enough)) (.start (few.trans enoughToo))⟩

/-- From an absolute place, no name of a document that a schema is composed of climbs above the
root. -/
def StaysBelowRoot (registry : Registry) (schema : Json) : Prop :=
  ∀ place, registry.place = some place → Path.isAbsolute place.toList = true →
    ∀ text document pointer, registry.ReachesReference schema text →
      Reference.parse text = .ok (.remote document pointer) →
      Path.climbs document.toList ≤ depth place

theorem StaysBelowRoot.exists_climbsWithin (below : registry.StaysBelowRoot schema) :
    ∃ bound, registry.ClimbsWithin bound schema ∧
      registry.entries.length + registry.documents.size * (bound + 2) ≤ registry.chainLimit := by
  have size : registry.documents.size ≤
      (registry.documents.size + 1) * (registry.documents.size + 1) :=
    (Nat.le_succ _).trans (Nat.le_mul_self _)
  unfold chainLimit
  cases placed : registry.place with
  | none =>
    refine ⟨0, ⟨by simp [placed], by simp [placed]⟩, ?_⟩
    rw [Nat.mul_comm]
    exact Nat.add_le_add_left (Nat.mul_le_mul_left _ size) _
  | some place =>
    refine ⟨depth place, ⟨fun other isPlace => ?_, fun other isPlace rooted => ?_⟩, ?_⟩
    · rw [Option.some.inj (placed.symm.trans isPlace)]
    · obtain rfl := Option.some.inj (placed.symm.trans isPlace)
      exact below place placed rooted
    · rw [Nat.mul_comm]
      refine Nat.add_le_add_left (Nat.mul_le_mul (Nat.add_le_add_right ?_ 2) size) _
      exact Path.length_normalSegments_directory_le place.toList

/-- If no name climbs above the root, no chain of references is cut short by the limit: flattening
and effective keywords come to what they come to if more references may be followed. -/
theorem chains_end_within_chainLimit (reads : registry.ReadsDocuments)
    (below : registry.StaysBelowRoot schema) {hops : Nat} (enough : registry.chainLimit ≤ hops)
    (skip : Option String) (name keyword : String) :
    EndsAlike (registry.flattenWithout skip name schema)
      (registry.flattenFrom skip hops [] name schema) ∧
    EndsAlike (registry.effectiveWithout? skip schema keyword)
      (registry.effectiveFrom skip keyword hops [] schema) := by
  obtain ⟨bound, within, limit⟩ := below.exists_climbsWithin
  exact chains_end reads within limit (limit.trans enough) skip name keyword

end Registry

end EntityMapping
