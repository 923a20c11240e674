import EntityMapping.Path
import Mathlib.Data.List.Basic

/-!
Normalized paths. What is left of a path is told by its segments: none is empty or stands for the
same directory, and those that climb come first, on a path that is not absolute only. A path of
such segments is left as it is, so normalizing twice is normalizing once.
-/

set_option autoImplicit false
set_option relaxedAutoImplicit false

namespace EntityMapping

namespace Text

variable {separator : Char} {text piece : List Char} {pieces : List (List Char)}

theorem split_of_not_mem (absent : separator ∉ text) : split separator text = [text] := by
  induction text with
  | nil => rfl
  | cons c rest ih =>
    obtain ⟨different, absentLater⟩ := not_or.mp (List.mem_cons.not.mp absent)
    simp [split, Ne.symm different, ih absentLater]

theorem split_append (before after : List Char) : split separator (before ++ separator :: after) =
    split separator before ++ split separator after := by
  induction before with
  | nil => simp [split]
  | cons c rest ih =>
    by_cases same : c = separator
    · simp [split, same, ih]
    · simp only [List.cons_append, split, same, if_false, ih]
      cases pieces : split separator rest with
      | nil => exact absurd pieces (split_ne_nil separator rest)
      | cons first more => rfl

theorem not_mem_of_mem_split (member : piece ∈ split separator text) : separator ∉ piece := by
  induction text generalizing piece with
  | nil => simp_all [split]
  | cons c rest ih =>
    by_cases same : c = separator
    · simp only [split, same, if_true, List.mem_cons] at member
      rcases member with rfl | later
      · simp
      · exact ih later
    · simp only [split, same, if_false] at member
      cases pieces : split separator rest with
      | nil => exact absurd pieces (split_ne_nil separator rest)
      | cons first more =>
        rw [pieces] at member
        rcases List.mem_cons.mp member with rfl | later
        · exact List.not_mem_cons_of_ne_of_not_mem (Ne.symm same)
            (ih (pieces ▸ List.mem_cons_self))
        · exact ih (pieces ▸ List.mem_cons_of_mem _ later)

theorem join_cons_cons (first second : List Char) (more : List (List Char)) :
    join separator (first :: second :: more) =
      first ++ separator :: join separator (second :: more) := rfl

theorem join_append {more : List (List Char)} (nonempty : pieces ≠ [])
    (nonemptyToo : more ≠ []) : join separator (pieces ++ more) =
      join separator pieces ++ separator :: join separator more := by
  induction pieces with
  | nil => exact absurd rfl nonempty
  | cons first rest ih =>
    cases rest with
    | nil =>
      obtain ⟨second, later, rfl⟩ := List.exists_cons_of_ne_nil nonemptyToo
      rfl
    | cons second later =>
      have inner := ih (List.cons_ne_nil _ _)
      rw [List.cons_append] at inner
      rw [List.cons_append, List.cons_append, join_cons_cons, inner, join_cons_cons,
        List.append_assoc, List.cons_append]

/-- Pieces without the separator are what their text is cut into. -/
theorem split_join (nonempty : pieces ≠ []) (without : ∀ piece ∈ pieces, separator ∉ piece) :
    split separator (join separator pieces) = pieces := by
  induction pieces with
  | nil => exact absurd rfl nonempty
  | cons first rest ih =>
    obtain ⟨absent, later⟩ := List.forall_mem_cons.mp without
    cases rest with
    | nil => exact split_of_not_mem absent
    | cons second more =>
      rw [join_cons_cons, split_append, split_of_not_mem absent, ih (List.cons_ne_nil _ _) later,
        List.singleton_append]

theorem mem_join {c : Char} (member : c ∈ join separator pieces) :
    c = separator ∨ ∃ piece ∈ pieces, c ∈ piece := by
  induction pieces with
  | nil => simp [join] at member
  | cons first rest ih =>
    cases rest with
    | nil => exact .inr ⟨first, List.mem_cons_self, member⟩
    | cons second more =>
      rw [join_cons_cons] at member
      rcases List.mem_append.mp member with here | later
      · exact .inr ⟨first, List.mem_cons_self, here⟩
      rcases List.mem_cons.mp later with same | later
      · exact .inl same
      rcases ih later with same | ⟨piece, among, inPiece⟩
      · exact .inl same
      · exact .inr ⟨piece, List.mem_cons_of_mem _ among, inPiece⟩

theorem mem_join_of_mem {c : Char} (among : piece ∈ pieces) (inPiece : c ∈ piece) :
    c ∈ join separator pieces := by
  induction pieces with
  | nil => cases among
  | cons first rest ih =>
    cases rest with
    | nil => exact List.mem_singleton.mp among ▸ inPiece
    | cons second more =>
      rw [join_cons_cons]
      rcases List.mem_cons.mp among with rfl | later
      · exact List.mem_append_left _ inPiece
      · exact List.mem_append_right _ (List.mem_cons_of_mem _ (ih later))

theorem mem_of_mem_split {c : Char} (among : piece ∈ split separator text)
    (inPiece : c ∈ piece) : c ∈ text :=
  join_split separator text ▸ mem_join_of_mem among inPiece

end Text

namespace Path

variable {absolute : Bool} {kept segments : List Segment} {segment : Segment}
  {path before rest : List Char}

/-- A segment that can be left of a path. -/
structure IsKept (segment : Segment) : Prop where
  nonempty : segment ≠ []
  moves : segment ≠ here
  single : '/' ∉ segment

/-- Segments that can be left of a path, innermost first: those that climb come before all others,
and only on a path that is not absolute. -/
def AreKept (absolute : Bool) : List Segment → Prop
  | [] => True
  | segment :: outer =>
      IsKept segment ∧ (segment = up → absolute = false ∧ ∀ other ∈ outer, other = up) ∧
        AreKept absolute outer

theorem AreKept.isKept (areKept : AreKept absolute kept) : ∀ segment ∈ kept, IsKept segment := by
  induction kept with
  | nil => simp
  | cons segment outer ih =>
    obtain ⟨isKept, -, later⟩ := areKept
    exact List.forall_mem_cons.mpr ⟨isKept, ih later⟩

theorem isKept_up : IsKept up := ⟨by decide, by decide, by decide⟩

theorem areKept_replicate_up (count : Nat) : AreKept false (List.replicate count up) := by
  induction count with
  | zero => trivial
  | succ count ih => exact ⟨isKept_up, fun _ => ⟨rfl, fun _ => List.eq_of_mem_replicate⟩, ih⟩

theorem push_named (isKept : IsKept segment) (named : segment ≠ up) :
    push absolute kept segment = segment :: kept := by
  simp [push, isKept.nonempty, isKept.moves, named]

theorem areKept_push (areKept : AreKept absolute kept) (single : '/' ∉ segment) :
    AreKept absolute (push absolute kept segment) := by
  unfold push
  by_cases stays : segment = [] ∨ segment = here
  · simpa [stays] using areKept
  obtain ⟨nonempty, moves⟩ := not_or.mp stays
  by_cases climbs : segment = up
  · subst climbs
    cases kept with
    | nil => cases absolute <;> simp [nonempty, moves, AreKept, isKept_up]
    | cons last outer =>
      obtain ⟨isKept, above, later⟩ := areKept
      by_cases climbed : last = up
      · obtain ⟨relative, all⟩ := above climbed
        subst climbed relative
        simpa [nonempty, moves, AreKept, isKept_up] using ⟨all, later⟩
      · simpa [nonempty, moves, climbed] using later
  · simp only [nonempty, moves, climbs, decide_false, Bool.or_self, Bool.false_eq_true, if_false]
    exact ⟨⟨nonempty, moves, single⟩, fun same => absurd same climbs, areKept⟩

theorem areKept_foldl (areKept : AreKept absolute kept) (single : ∀ segment ∈ segments,
    '/' ∉ segment) : AreKept absolute (segments.foldl (push absolute) kept) := by
  induction segments generalizing kept with
  | nil => exact areKept
  | cons segment rest ih =>
    obtain ⟨here, later⟩ := List.forall_mem_cons.mp single
    exact ih (areKept_push areKept here) later

/-- Segments that are taken again are all kept. -/
theorem foldl_push_reverse (areKept : AreKept absolute kept) :
    kept.reverse.foldl (push absolute) [] = kept := by
  induction kept with
  | nil => rfl
  | cons segment outer ih =>
    obtain ⟨isKept, above, later⟩ := areKept
    rw [List.reverse_cons, List.foldl_append, ih later]
    by_cases climbs : segment = up
    · obtain ⟨rfl, all⟩ := above climbs
      subst climbs
      cases outer with
      | nil => rfl
      | cons last more =>
        obtain rfl := all last List.mem_cons_self
        rfl
    · exact push_named isKept climbs

theorem areKept_normalSegments (path : List Char) :
    AreKept (isAbsolute path) (normalSegments path).reverse := by
  rw [normalSegments, List.reverse_reverse]
  exact areKept_foldl trivial fun segment member => Text.not_mem_of_mem_split member

theorem isKept_of_mem_normalSegments (member : segment ∈ normalSegments path) : IsKept segment :=
  (areKept_normalSegments path).isKept segment (List.mem_reverse.mpr member)

theorem mem_of_mem_push {other : Segment} (member : other ∈ push absolute kept segment) :
    other = segment ∨ other ∈ kept := by
  unfold push at member
  split at member
  · exact .inr member
  split at member
  · rename_i climbs
    split at member
    · split at member
      · exact .inr (List.mem_cons_of_mem _ member)
      · split at member
        · exact .inr member
        · exact (List.mem_cons.mp member).imp_left (·.trans climbs.symm)
    · split at member
      · cases member
      · exact .inl ((List.mem_singleton.mp member).trans climbs.symm)
  · exact List.mem_cons.mp member

theorem mem_of_mem_foldl {other : Segment} (member : other ∈ segments.foldl (push absolute) kept) :
    other ∈ segments ∨ other ∈ kept := by
  induction segments generalizing kept with
  | nil => exact .inr member
  | cons segment rest ih =>
    rcases ih member with later | now
    · exact .inl (List.mem_cons_of_mem _ later)
    · exact (mem_of_mem_push now).imp_left fun same => List.mem_cons.mpr (.inl same)

/-- Normalizing a path brings no characters in but the slashes between its segments. -/
theorem mem_of_mem_normalize {c : Char} (member : c ∈ normalize path) : c = '/' ∨ c ∈ path := by
  have inSegments : c ∈ Text.join '/' (normalSegments path) → c = '/' ∨ c ∈ path := by
    intro joined
    rcases Text.mem_join joined with slash | ⟨segment, among, inSegment⟩
    · exact .inl slash
    rcases mem_of_mem_foldl (List.mem_reverse.mp among) with split | absurd
    · exact .inr (Text.mem_of_mem_split split inSegment)
    · cases absurd
  unfold normalize render at member
  split at member
  · exact (List.mem_cons.mp member).elim .inl inSegments
  · exact inSegments member

theorem isAbsolute_render (each : ∀ segment ∈ segments, IsKept segment) :
    isAbsolute (render absolute segments) = absolute := by
  cases absolute with
  | true => rfl
  | false =>
    cases segments with
    | nil => rfl
    | cons first rest =>
      obtain ⟨nonempty, -, single⟩ := each first List.mem_cons_self
      obtain ⟨c, more, rfl⟩ := List.exists_cons_of_ne_nil nonempty
      have different : c ≠ '/' := fun same => single (same ▸ List.mem_cons_self)
      cases rest <;> simpa [render, Text.join, isAbsolute] using different

/-- A path written from segments has these segments, and empty ones before them where it begins
with a slash or has no segment. -/
theorem split_render (absolute : Bool) (each : ∀ segment ∈ segments, IsKept segment) :
    ∃ empties : List Segment, (∀ segment ∈ empties, segment = []) ∧
      Text.split '/' (render absolute segments) = empties ++ segments := by
  have written : ∃ empties : List Segment, (∀ segment ∈ empties, segment = []) ∧
      Text.split '/' (Text.join '/' segments) = empties ++ segments := by
    cases segments with
    | nil => exact ⟨[[]], by simp, rfl⟩
    | cons first rest =>
      refine ⟨[], by simp, ?_⟩
      exact Text.split_join (List.cons_ne_nil _ _) fun segment member => (each segment member).single
  cases absolute with
  | false => exact written
  | true =>
    obtain ⟨empties, areEmpty, cut⟩ := written
    exact ⟨[] :: empties, by simpa using areEmpty, by simp [render, Text.split, cut]⟩

theorem foldl_push_empties {empties : List Segment} (areEmpty : ∀ segment ∈ empties, segment = []) :
    empties.foldl (push absolute) kept = kept := by
  induction empties generalizing kept with
  | nil => rfl
  | cons segment rest ih =>
    obtain ⟨rfl, later⟩ := List.forall_mem_cons.mp areEmpty
    exact ih later

/-- The segments that are kept when a path is taken from others, innermost first. -/
def walk (absolute : Bool) (kept : List Segment) (path : List Char) : List Segment :=
  (Text.split '/' path).foldl (push absolute) kept

theorem normalSegments_eq_walk (path : List Char) :
    normalSegments path = (walk (isAbsolute path) [] path).reverse := rfl

theorem walk_render (absolute other : Bool) (kept : List Segment)
    (each : ∀ segment ∈ segments, IsKept segment) :
    walk absolute kept (render other segments) = segments.foldl (push absolute) kept := by
  obtain ⟨empties, areEmpty, cut⟩ := split_render other each
  rw [walk, cut, List.foldl_append, foldl_push_empties areEmpty]

theorem walk_normalize (absolute : Bool) (kept : List Segment) (path : List Char) :
    walk absolute kept (normalize path) = (normalSegments path).foldl (push absolute) kept :=
  walk_render absolute _ kept fun _ => isKept_of_mem_normalSegments

/-- A path that is written from segments that can be left of it has all of them left. -/
theorem normalSegments_render (areKept : AreKept absolute segments.reverse) :
    normalSegments (render absolute segments) = segments := by
  have each : ∀ segment ∈ segments, IsKept segment := fun segment member =>
    areKept.isKept segment (List.mem_reverse.mpr member)
  have again := foldl_push_reverse areKept
  rw [List.reverse_reverse] at again
  rw [normalSegments_eq_walk, isAbsolute_render each, walk_render _ _ _ each, again,
    List.reverse_reverse]

theorem isAbsolute_normalize (path : List Char) : isAbsolute (normalize path) = isAbsolute path :=
  isAbsolute_render fun _ => isKept_of_mem_normalSegments

theorem normalSegments_normalize (path : List Char) :
    normalSegments (normalize path) = normalSegments path :=
  normalSegments_render (areKept_normalSegments path)

theorem normalize_normalize (path : List Char) : normalize (normalize path) = normalize path := by
  rw [normalize, isAbsolute_normalize, normalSegments_normalize, normalize]

/-- A normalized path has no two slashes in a row, but for its beginning. -/
theorem normalize_ne_slashes (nonempty : before ≠ []) (single : '/' ∉ before) :
    normalize path ≠ before ++ '/' :: '/' :: rest := by
  intro written
  have each : ∀ segment ∈ normalSegments path, IsKept segment :=
    fun _ => isKept_of_mem_normalSegments
  have cutHere : Text.split '/' (normalize path) = before :: [] :: Text.split '/' rest := by
    rw [written, Text.split_append, Text.split_of_not_mem single]
    rfl
  obtain ⟨empties, areEmpty, cut⟩ := split_render (isAbsolute path) each
  have same : empties ++ normalSegments path = before :: [] :: Text.split '/' rest :=
    cut.symm.trans cutHere
  cases empties with
  | cons first more =>
    obtain ⟨rfl, -⟩ := List.cons.inj same
    exact nonempty (areEmpty _ List.mem_cons_self)
  | nil =>
    have empty : ([] : Segment) ∈ normalSegments path := by
      rw [List.nil_append] at same
      simp [same]
    exact (each _ empty).nonempty rfl

theorem join_of_not_below {base : List Char} (notBelow : isAbsolute path = true ∨ base = []) :
    join base path = path := by
  unfold join
  rw [if_pos (by simpa using notBelow)]

theorem ne_nil_of_isAbsolute (absolute : isAbsolute path = true) : path ≠ [] := by
  rintro rfl
  cases absolute

/-- A path that is written behind another one is walked from where that one leads. -/
theorem walk_append (absolute : Bool) (kept : List Segment) (before rest : List Char) :
    walk absolute kept (before ++ '/' :: rest) = walk absolute (walk absolute kept before) rest := by
  rw [walk, Text.split_append, List.foldl_append, walk, walk]

/-- A path that is taken from a directory is walked from where the directory leads. -/
theorem walk_join {base : List Char} (nonempty : base ≠ []) (relative : isAbsolute path = false) :
    walk absolute kept (join base path) = walk absolute (walk absolute kept base) path := by
  unfold join
  rw [relative, decide_eq_false nonempty, if_neg (by simp)]
  split
  · rename_i ending
    obtain ⟨start, rfl⟩ := List.getLast?_eq_some_iff.mp ending
    rw [List.append_assoc, List.singleton_append, walk_append, walk_append]
    rfl
  · exact walk_append _ _ _ _

theorem isAbsolute_join {base : List Char} (nonempty : base ≠ [])
    (relative : isAbsolute path = false) : isAbsolute (join base path) = isAbsolute base := by
  obtain ⟨c, rest, rfl⟩ := List.exists_cons_of_ne_nil nonempty
  unfold join
  rw [relative, decide_eq_false nonempty, if_neg (by simp)]
  split <;> rfl

theorem isKept_of_mem_directory (member : segment ∈ (namedSegments path).dropLast) :
    IsKept segment := by
  obtain ⟨among, isNamed⟩ := List.mem_filter.mp (List.dropLast_subset _ member)
  obtain ⟨nonempty, moves⟩ : segment ≠ [] ∧ segment ≠ here := by simpa using isNamed
  exact ⟨nonempty, moves, Text.not_mem_of_mem_split among⟩

theorem isAbsolute_directory (path : List Char) : isAbsolute (directory path) = isAbsolute path :=
  isAbsolute_render fun _ => isKept_of_mem_directory

/-- How many directories a path climbs. -/
def climbs (path : List Char) : Nat := (normalSegments path).count up

/-- The segments of a path that name something. -/
def named (path : List Char) : List Segment := (normalSegments path).filter (· ≠ up)

theorem AreKept.exists_climbs (areKept : AreKept absolute kept) :
    ∃ inner count, kept = inner ++ List.replicate count up ∧ up ∉ inner := by
  induction kept with
  | nil => exact ⟨[], 0, rfl, List.not_mem_nil⟩
  | cons segment outer ih =>
    obtain ⟨-, above, later⟩ := areKept
    by_cases isUp : segment = up
    · refine ⟨[], outer.length + 1, ?_, List.not_mem_nil⟩
      rw [List.nil_append, List.replicate_succ, isUp,
        ← List.eq_replicate_of_mem (above isUp).2]
    · obtain ⟨inner, count, rfl, noUp⟩ := ih later
      exact ⟨segment :: inner, count, rfl, List.not_mem_cons_of_ne_of_not_mem (Ne.symm isUp) noUp⟩

/-- A path climbs first, and names what it leads to then. -/
theorem normalSegments_eq_append (path : List Char) :
    normalSegments path = List.replicate (climbs path) up ++ named path := by
  obtain ⟨inner, count, kept, noUp⟩ := (areKept_normalSegments path).exists_climbs
  have written : normalSegments path = List.replicate count up ++ inner.reverse := by
    rw [← List.reverse_reverse (normalSegments path), kept, List.reverse_append,
      List.reverse_replicate]
  have counted : climbs path = count := by
    rw [climbs, written, List.count_append, List.count_replicate_self, List.count_eq_zero.mpr
      (mt List.mem_reverse.mp noUp), Nat.add_zero]
  have filtered : named path = inner.reverse := by
    have all : inner.reverse.filter (· ≠ up) = inner.reverse :=
      List.filter_eq_self.mpr fun segment member => decide_eq_true fun same =>
        noUp (same ▸ List.mem_reverse.mp member)
    rw [named, written, List.filter_append, all]
    simp
  rw [counted, filtered, written]

theorem foldl_push_named (each : ∀ segment ∈ segments, IsKept segment ∧ segment ≠ up) :
    segments.foldl (push absolute) kept = segments.reverse ++ kept := by
  induction segments generalizing kept with
  | nil => rfl
  | cons segment rest ih =>
    obtain ⟨⟨isKept, isNamed⟩, later⟩ := List.forall_mem_cons.mp each
    rw [List.foldl_cons, push_named isKept isNamed, ih later, List.reverse_cons, List.append_assoc,
      List.singleton_append]

theorem isKept_of_mem_named (member : segment ∈ named path) : IsKept segment ∧ segment ≠ up := by
  obtain ⟨among, isNamed⟩ := List.mem_filter.mp member
  exact ⟨isKept_of_mem_normalSegments among, of_decide_eq_true isNamed⟩

/-- Walking a normalized path is climbing as often as it does, and adding what it names. -/
theorem walk_normalize_eq (absolute : Bool) (kept : List Segment) (path : List Char) :
    walk absolute kept (normalize path) =
      (named path).reverse ++ (List.replicate (climbs path) up).foldl (push absolute) kept := by
  rw [walk_normalize, normalSegments_eq_append, List.foldl_append,
    foldl_push_named fun _ => isKept_of_mem_named]

theorem push_up_of_ne {last : Segment} (isNamed : last ≠ up) (outer : List Segment) :
    push absolute (last :: outer) up = outer := by
  unfold push
  rw [if_neg (by decide), if_pos rfl]
  exact if_pos isNamed

theorem foldl_push_up_append {inner : List Segment} (noUp : up ∉ inner) (outer : List Segment) :
    (List.replicate inner.length up).foldl (push absolute) (inner ++ outer) = outer := by
  induction inner with
  | nil => rfl
  | cons last inner ih =>
    obtain ⟨isNamed, noUpLater⟩ := not_or.mp (List.mem_cons.not.mp noUp)
    rw [List.length_cons, List.replicate_succ, List.foldl_cons, List.cons_append,
      push_up_of_ne (Ne.symm isNamed), ih noUpLater]

theorem foldl_push_up_replicate (count more : Nat) :
    (List.replicate count up).foldl (push false) (List.replicate more up) =
      List.replicate (count + more) up := by
  induction count generalizing more with
  | zero => rw [Nat.zero_add, List.replicate_zero, List.foldl_nil]
  | succ count ih =>
    have climbed : push false (List.replicate more up) up = List.replicate (more + 1) up := by
      cases more <;> rfl
    rw [List.replicate_succ, List.foldl_cons, climbed, ih, Nat.add_right_comm, Nat.add_assoc]

/-- Climbing far enough leads to the root, and further climbing stays there. -/
theorem foldl_push_up_root {count : Nat} (areKept : AreKept true kept)
    (enough : kept.length ≤ count) : (List.replicate count up).foldl (push true) kept = [] := by
  induction count generalizing kept with
  | zero => exact List.eq_nil_of_length_eq_zero (Nat.le_zero.mp enough)
  | succ count ih =>
    rw [List.replicate_succ, List.foldl_cons]
    cases kept with
    | nil => exact ih trivial (Nat.zero_le _)
    | cons last outer =>
      obtain ⟨-, above, later⟩ := areKept
      rw [push_up_of_ne fun climbed => absurd (above climbed).1 (by decide)]
      exact ih later (Nat.le_of_succ_le_succ enough)

/-- Without a root, climbing further than segments lead down climbs from where they started. -/
theorem count_foldl_push_up {count : Nat} (areKept : AreKept false kept)
    (enough : kept.length ≤ count) :
    ((List.replicate count up).foldl (push false) kept).count up + kept.length =
      count + 2 * kept.count up := by
  obtain ⟨inner, more, rfl, noUp⟩ := areKept.exists_climbs
  rw [List.length_append, List.length_replicate] at enough
  obtain ⟨rest, rfl⟩ := Nat.exists_eq_add_of_le (Nat.le_of_add_right_le enough)
  rw [← List.replicate_append_replicate, List.foldl_append, foldl_push_up_append noUp,
    foldl_push_up_replicate, List.count_replicate_self, List.count_append,
    List.count_eq_zero.mpr noUp, List.count_replicate_self, List.length_append,
    List.length_replicate]
  omega

theorem length_push_le (kept : List Segment) (segment : Segment) :
    (push absolute kept segment).length ≤ kept.length + 1 := by
  unfold push
  split
  · exact Nat.le_succ _
  split
  · cases kept with
    | nil => cases absolute <;> simp
    | cons last outer =>
      dsimp only
      split
      · exact Nat.le_succ_of_le (Nat.le_succ _)
      split
      · exact Nat.le_succ _
      · exact Nat.le_refl _
  · exact Nat.le_refl _

theorem length_foldl_push_le (kept segments : List Segment) :
    (segments.foldl (push absolute) kept).length ≤ kept.length + segments.length := by
  induction segments generalizing kept with
  | nil => exact Nat.le_refl _
  | cons segment rest ih =>
    calc (rest.foldl (push absolute) (push absolute kept segment)).length
      _ ≤ (push absolute kept segment).length + rest.length := ih _
      _ ≤ kept.length + 1 + rest.length := Nat.add_le_add_right (length_push_le kept segment) _
      _ = kept.length + (rest.length + 1) := by omega

theorem length_normalSegments_directory_le (path : List Char) :
    (normalSegments (directory path)).length ≤ (namedSegments path).length := by
  rw [normalSegments_eq_walk, directory, walk_render _ _ _ fun _ => isKept_of_mem_directory,
    List.length_reverse]
  calc _
    _ ≤ 0 + (namedSegments path).dropLast.length := length_foldl_push_le _ _
    _ = (namedSegments path).length - 1 := by rw [Nat.zero_add, List.length_dropLast]
    _ ≤ (namedSegments path).length := Nat.sub_le _ _

end Path

end EntityMapping
