import EntityMapping.Proofs.NamedDocuments
import Mathlib.Data.List.TakeWhile

/-!
What relocated references name. A reference stands in a document and is relative to the directory of
that document; relocated, it is relative to where the document itself is named from. Whatever
directory that is, both name the same file, although a relative path keeps climbing where an absolute
one has come to the root. So do references that are relocated from one document to the next.
-/

set_option autoImplicit false
set_option relaxedAutoImplicit false

namespace EntityMapping

namespace Text

/-- A beginning without the separator is not completed by what follows a separator. -/
theorem isSome_strip?_append {separator : Char} {beginning : List Char}
    (absent : separator ∉ beginning) (text after : List Char) :
    (strip? beginning (text ++ separator :: after)).isSome = (strip? beginning text).isSome := by
  induction beginning generalizing text with
  | nil => rfl
  | cons b rest ih =>
    obtain ⟨different, absentLater⟩ := not_or.mp (List.mem_cons.not.mp absent)
    cases text with
    | nil => simp [strip?, Ne.symm different]
    | cons c text =>
      by_cases same : b = c
      · simpa [strip?, same] using ih absentLater text
      · simp [strip?, same]

end Text

namespace Path

variable {absolute : Bool} {kept outer segments : List Segment} {base path : List Char}

/-- The normalized path of what a path names from a directory. -/
def located (base path : List Char) : List Char := normalize (join base path)

/-- Taking a segment before segments are walked, or after that, leads to the same. Only the walk
may stop climbing at the root: climbing that is kept without a root is done again on the walk. -/
theorem foldl_push_push (isKept : ∀ other ∈ kept, IsKept other) (segment : Segment) :
    (push false kept segment).reverse.foldl (push absolute) outer =
      push absolute (kept.reverse.foldl (push absolute) outer) segment := by
  by_cases stays : segment = [] ∨ segment = here
  · simp [push, stays]
  obtain ⟨nonempty, moves⟩ := not_or.mp stays
  have taken : (segment :: kept).reverse.foldl (push absolute) outer =
      push absolute (kept.reverse.foldl (push absolute) outer) segment := by
    rw [List.reverse_cons, List.foldl_append]
    rfl
  by_cases climbs : segment = up
  · subst climbs
    cases kept with
    | nil => rfl
    | cons last rest =>
      by_cases climbed : last = up
      · subst climbed
        exact taken
      · have here := (List.forall_mem_cons.mp isKept).1
        rw [push_up_of_ne climbed, List.reverse_cons, List.foldl_append, List.foldl_cons,
          List.foldl_nil, push_named here climbed, push_up_of_ne climbed]
  · have isPushed : push false kept segment = segment :: kept := by
      simp [push, nonempty, moves, climbs]
    rw [isPushed, taken]

theorem foldl_push_foldl (areKept : AreKept false kept)
    (single : ∀ segment ∈ segments, '/' ∉ segment) :
    (segments.foldl (push false) kept).reverse.foldl (push absolute) outer =
      segments.foldl (push absolute) (kept.reverse.foldl (push absolute) outer) := by
  induction segments generalizing kept with
  | nil => rfl
  | cons segment rest ih =>
    obtain ⟨here, later⟩ := List.forall_mem_cons.mp single
    rw [List.foldl_cons, List.foldl_cons, ih (areKept_push areKept here) later,
      foldl_push_push areKept.isKept]

/-- From any directory, a relative path leads where it leads once it is normalized. -/
theorem walk_normalize_of_relative (relative : isAbsolute path = false) :
    walk absolute outer (normalize path) = walk absolute outer path := by
  have single : ∀ segment ∈ Text.split '/' path, '/' ∉ segment :=
    fun _ => Text.not_mem_of_mem_split
  have kept : AreKept false [] := trivial
  rw [walk_normalize, normalSegments, relative, foldl_push_foldl kept single]
  rfl

/-- Taking a path from a directory is climbing as often as it does, and adding what it names. -/
theorem normalSegments_join (nonempty : base ≠ []) (relative : isAbsolute path = false) :
    (normalSegments (join base path)).reverse = (named path).reverse ++
      (List.replicate (climbs path) up).foldl (push (isAbsolute base))
        (normalSegments base).reverse := by
  rw [normalSegments_eq_walk, List.reverse_reverse, isAbsolute_join nonempty relative,
    walk_join nonempty relative, ← walk_normalize_of_relative relative, walk_normalize_eq,
    normalSegments_eq_walk, List.reverse_reverse]

theorem located_eq_render (absolute : isAbsolute base = true)
    (relative : isAbsolute path = false) :
    located base path = render true (walk true (walk true [] base) path).reverse := by
  have nonempty := ne_nil_of_isAbsolute absolute
  rw [located, normalize, normalSegments_eq_walk, isAbsolute_join nonempty relative, absolute,
    walk_join nonempty relative]

/-- A relative path in normal form whose last segment names something. -/
structure IsFilePath (path : List Char) : Prop where
  normal : normalize path = path
  relative : isAbsolute path = false
  nonempty : path ≠ []
  named : (Text.split '/' path).getLast? ≠ some up

/-- Such a path is the path of a directory, which may be the one that it is taken from, and a
name. -/
theorem IsFilePath.exists_render (file : IsFilePath path) : ∃ inner last,
    path = render false (inner ++ [last]) ∧
      (∀ segment ∈ inner ++ [last], IsKept segment) ∧ last ≠ up := by
  have written : path = render false (normalSegments path) := by
    rw [← file.relative, ← normalize, file.normal]
  have each : ∀ segment ∈ normalSegments path, IsKept segment :=
    fun _ => isKept_of_mem_normalSegments
  have named := file.named
  generalize normalSegments path = segments at written each
  rcases List.eq_nil_or_concat segments with rfl | ⟨inner, last, rfl⟩
  · exact absurd written file.nonempty
  rw [List.concat_eq_append] at written each
  refine ⟨inner, last, written, each, fun isUp => named ?_⟩
  have cut : Text.split '/' path = inner ++ [last] := by
    rw [written, render, if_neg (by decide)]
    exact Text.split_join (by simp) fun segment member => (each segment member).single
  rw [cut, List.getLast?_concat, isUp]

theorem directory_render (each : ∀ segment ∈ segments, IsKept segment) :
    directory (render absolute segments) = render absolute segments.dropLast := by
  obtain ⟨empties, areEmpty, cut⟩ := split_render absolute each
  have empty : empties.filter (fun segment => segment ≠ [] && segment ≠ here) = [] := by
    refine List.filter_eq_nil_iff.mpr fun segment member => ?_
    simp [areEmpty segment member]
  have all : segments.filter (fun segment => segment ≠ [] && segment ≠ here) = segments := by
    refine List.filter_eq_self.mpr fun segment member => ?_
    simp [(each segment member).nonempty, (each segment member).moves]
  rw [directory, isAbsolute_render each, namedSegments, cut, List.filter_append, empty, all,
    List.nil_append]

/-- A path behind a directory and a slash names what it names from the directory. -/
theorem normalize_append (nonempty : base ≠ []) (relative : isAbsolute path = false) :
    normalize (base ++ '/' :: path) = normalize (join base path) := by
  have sameRoot : isAbsolute (base ++ '/' :: path) = isAbsolute (join base path) := by
    rw [isAbsolute_join nonempty relative]
    obtain ⟨c, rest, rfl⟩ := List.exists_cons_of_ne_nil nonempty
    rfl
  have sameWalk : walk (isAbsolute (join base path)) [] (base ++ '/' :: path) =
      walk (isAbsolute (join base path)) [] (join base path) := by
    rw [walk_join nonempty relative, walk_append]
  rw [normalize, normalize, normalSegments_eq_walk, normalSegments_eq_walk, sameRoot, sameWalk]

end Path

namespace Reference

open EntityMapping.Path (IsKept IsFilePath isAbsolute located render up walk)

variable {base : List Char} {segments : List Path.Segment} {context document pointer next : String}

theorem directoryOf_render {inner : List Path.Segment} {last : Path.Segment}
    (each : ∀ segment ∈ inner ++ [last], IsKept segment) :
    directoryOf (render false (inner ++ [last])) = render false inner := by
  have single := (each last (by simp)).single
  cases inner with
  | nil =>
    have passed : ∀ c ∈ last.reverse, decide (c ≠ '/') = true := fun c member =>
      decide_eq_true fun same => single (same ▸ List.mem_reverse.mp member)
    have none : last.reverse.dropWhile (· ≠ '/') = [] := List.dropWhile_eq_nil_iff.mpr passed
    change directoryOf last = []
    rw [directoryOf, none]
  | cons first rest =>
    have written : render false (first :: rest ++ [last]) =
        render false (first :: rest) ++ '/' :: last :=
      Text.join_append (List.cons_ne_nil _ _) (List.cons_ne_nil _ _)
    rw [written, directoryOf_append single]

/-- A document that is named by a relative path. -/
structure IsRelative (document : String) : Prop where
  nonempty : document ≠ ""
  relative : isAbsolute document.toList = false
  unmarked : '#' ∉ document.toList
  notAddress : isAddress document.toList = false

theorem toList_append_pointer (document pointer : String) :
    (document ++ "#" ++ pointer).toList = document.toList ++ '#' :: pointer.toList := by
  simp

theorem isAddress_append_mark (document pointer : List Char) :
    isAddress (document ++ '#' :: pointer) = isAddress document := by
  unfold isAddress Text.beginsWith
  rw [Text.isSome_strip?_append (by decide), Text.isSome_strip?_append (by decide)]

/-- A path that a reference gives is taken from the directory of the document it is found in, with or
without a mark and a pointer behind it. -/
theorem relocateText_of_cut {reference : String} {path behind : List Char}
    (notWithin : reference.toList.head? ≠ some '#') (notAddress : ¬ isAddress reference.toList = true)
    (cut : (Text.splitOnce? '#' reference.toList).getD (reference.toList, []) = (path, behind))
    (context : String) : relocateText context reference =
      String.ofList (Path.normalize (Path.join (directoryOf context.toList) path) ++ '#' :: behind) := by
  unfold relocateText
  dsimp only
  rw [if_neg notWithin, if_neg notAddress, cut]
  by_cases notBelow : directoryOf context.toList = [] ∨ isAbsolute path = true
  · rw [if_pos (by simpa using notBelow), Path.join_of_not_below notBelow.symm]
  · obtain ⟨below, relative⟩ := not_or.mp notBelow
    rw [if_neg (by simpa using notBelow), Path.normalize_append below (by simpa using relative)]

/-- A reference by a path is relocated into the directory of the document it is found in. -/
theorem relocateText_document (unmarked : '#' ∉ document.toList) (nonempty : document ≠ "")
    (context pointer : String) : relocateText context (document ++ "#" ++ pointer) =
      if isAddress document.toList = true then document ++ "#" ++ pointer
      else String.ofList (Path.normalize (Path.join (directoryOf context.toList) document.toList)) ++
        "#" ++ pointer := by
  obtain ⟨c, rest, start⟩ := List.exists_cons_of_ne_nil
    (fun empty => nonempty (String.toList_eq_nil_iff.mp empty))
  have notWithin : (document ++ "#" ++ pointer).toList.head? ≠ some '#' := by
    rw [toList_append_pointer, start]
    intro isMark
    exact unmarked (start ▸ Option.some.inj isMark ▸ List.mem_cons_self)
  have sameAddress : isAddress (document ++ "#" ++ pointer).toList = isAddress document.toList := by
    rw [toList_append_pointer, isAddress_append_mark]
  split
  · rename_i address
    rw [relocateText, if_neg notWithin, if_pos (sameAddress.trans address)]
  · rename_i notAddress
    have cut : (Text.splitOnce? '#' (document ++ "#" ++ pointer).toList).getD
        ((document ++ "#" ++ pointer).toList, []) = (document.toList, pointer.toList) := by
      rw [toList_append_pointer, Text.splitOnce?_append unmarked, Option.getD_some]
    rw [relocateText_of_cut notWithin (sameAddress ▸ notAddress) cut, ← String.toList_inj,
      toList_append_pointer, String.toList_ofList, String.toList_ofList]

theorem relocateText_eq (isRelative : IsRelative document) (context pointer : String) :
    relocateText context (document ++ "#" ++ pointer) =
      String.ofList (Path.normalize (Path.join (directoryOf context.toList) document.toList)) ++ "#" ++
        pointer := by
  rw [relocateText_document isRelative.unmarked isRelative.nonempty, isRelative.notAddress,
    if_neg Bool.false_ne_true]

theorem isAbsolute_placed (file : IsFilePath context.toList) (isRelative : IsRelative document) :
    isAbsolute (Path.join (directoryOf context.toList) document.toList) = false := by
  obtain ⟨inner, last, written, each, -⟩ := file.exists_render
  rw [written, directoryOf_render each]
  by_cases empty : render false inner = []
  · rw [Path.join_of_not_below (.inr empty), isRelative.relative]
  · rw [Path.isAbsolute_join empty isRelative.relative, Path.isAbsolute_render]
    exact fun segment member => each segment (List.mem_append_left _ member)

/-- A path that is taken from the directory of a document, as the document is named from a base,
names the same from the base as the path does from the directory that holds the document. -/
theorem located_placed (absolute : isAbsolute base = true) (file : IsFilePath context.toList)
    (isRelative : IsRelative document) :
    located base (Path.normalize (Path.join (directoryOf context.toList) document.toList)) =
      located (Path.directory (located base context.toList)) document.toList := by
  have relative := isAbsolute_placed file isRelative
  have normalRelative := (Path.isAbsolute_normalize _).trans relative
  have relativeFile := file.relative
  obtain ⟨inner, last, written, each, isNamed⟩ := file.exists_render
  have eachInner : ∀ segment ∈ inner, IsKept segment := fun segment member =>
    each segment (List.mem_append_left _ member)
  have isKept : IsKept last := each last (by simp)
  rw [Path.located_eq_render absolute normalRelative, Path.walk_normalize_of_relative relative,
    Path.located_eq_render absolute relativeFile, written, directoryOf_render each]
  generalize isStart : walk true [] base = start
  have startKept : Path.AreKept true start :=
    isStart ▸ Path.areKept_foldl trivial fun _ => Text.not_mem_of_mem_split
  -- the directory that holds the document, innermost segment first
  generalize isHolder : inner.foldl (Path.push true) start = holder
  have holderKept : Path.AreKept true holder :=
    isHolder ▸ Path.areKept_foldl startKept fun segment member => (eachInner segment member).single
  have toHolder : walk true start (render false inner) = holder :=
    (Path.walk_render _ _ _ eachInner).trans isHolder
  have toFile : walk true start (render false (inner ++ [last])) = last :: holder := by
    rw [Path.walk_render _ _ _ each, List.foldl_append, isHolder]
    exact Path.push_named isKept isNamed
  have fromHolder : walk true start (Path.join (render false inner) document.toList) =
      walk true holder document.toList := by
    by_cases empty : render false inner = []
    · have stays : holder = start := by
        rw [← toHolder, empty]
        rfl
      rw [Path.join_of_not_below (.inr empty), stays]
    · rw [Path.walk_join empty isRelative.relative, toHolder]
  have fileKept : Path.AreKept true (last :: holder) :=
    ⟨isKept, fun isUp => absurd isUp isNamed, holderKept⟩
  have eachKept : ∀ segment ∈ (last :: holder).reverse, IsKept segment := fun segment member =>
    fileKept.isKept segment (List.mem_reverse.mp member)
  have eachHolder : ∀ segment ∈ holder.reverse, IsKept segment := fun segment member =>
    holderKept.isKept segment (List.mem_reverse.mp member)
  rw [fromHolder, toFile, Path.directory_render eachKept, List.reverse_cons, List.dropLast_concat,
    Path.located_eq_render (Path.isAbsolute_render eachHolder) isRelative.relative,
    Path.walk_render _ _ _ eachHolder, Path.foldl_push_reverse holderKept]

/-- References that are found one after the other, each in the document that the one before leads
to. Each is relocated by the name that this document has. -/
inductive Relocates : (context : String) → (references : List (String × String)) →
    (last : String) → Prop
  | done (context : String) : Relocates context [] context
  | next {context document pointer next last : String} {rest : List (String × String)} :
      IsFilePath context.toList → IsRelative document →
      relocateText context (document ++ "#" ++ pointer) = next ++ "#" ++ pointer →
      Relocates next rest last → Relocates context ((document, pointer) :: rest) last

theorem Relocates.located {references : List (String × String)} {last : String}
    (relocates : Relocates context references last) (absolute : isAbsolute base = true) :
    located base last.toList = references.foldl
      (fun file reference => located (Path.directory file) reference.1.toList)
      (located base context.toList) := by
  induction relocates with
  | done context => rfl
  | @next context document pointer next last rest file isRelative relocated _ ih =>
    rw [relocateText_eq isRelative, ← String.toList_inj, toList_append_pointer,
      toList_append_pointer, List.append_cancel_right_eq, String.toList_ofList] at relocated
    rw [ih, List.foldl_cons, ← relocated, located_placed absolute file isRelative]

theorem mem_of_mem_directoryOf {path : List Char} {c : Char} (member : c ∈ directoryOf path) :
    c ∈ path := by
  unfold directoryOf at member
  split at member
  · cases member
  · rename_i slash before cut
    have inRest : c ∈ path.reverse.dropWhile (· ≠ '/') := by
      rw [cut]
      exact List.mem_cons_of_mem _ (List.mem_reverse.mp member)
    exact List.mem_reverse.mp ((List.dropWhile_sublist _).subset inRest)

theorem mem_of_mem_join {path : List Char} {c : Char} (member : c ∈ Path.join base path) :
    c ∈ base ∨ c = '/' ∨ c ∈ path := by
  unfold Path.join at member
  split at member
  · exact .inr (.inr member)
  split at member
  · exact (List.mem_append.mp member).imp_right .inr
  · exact (List.mem_append.mp member).imp_right List.mem_cons.mp

/-- Where the name of a document is free of the mark, so is the relocated name. -/
theorem isDocument_placed (isRelative : IsRelative document) (unmarked : '#' ∉ context.toList)
    {placed : String}
    (isPlaced : placed.toList = Path.normalize (Path.join (directoryOf context.toList) document.toList))
    (nonempty : placed ≠ "") : IsDocument placed := by
  rw [isDocument_iff]
  refine ⟨isPlaced ▸ Path.normalize_normalize _, fun marked => ?_, by simpa using nonempty, ?_⟩
  · rw [isPlaced] at marked
    rcases Path.mem_of_mem_normalize marked with slash | joined
    · exact absurd slash (by decide)
    rcases mem_of_mem_join joined with inDirectory | slash | inDocument
    · exact unmarked (mem_of_mem_directoryOf inDirectory)
    · exact absurd slash (by decide)
    · exact isRelative.unmarked inDocument
  · intro isHere
    have normal : Path.normalize placed.toList = placed.toList :=
      isPlaced ▸ Path.normalize_normalize _
    rw [isHere] at normal
    exact absurd normal (by decide)

/-- A relocated reference names the file that is meant. From every absolute directory, the document
in which the reference is found and the relocated path lead to files such that the second one is
what the reference names from the directory of the first one; the path is normalized, and the
pointer is the same. So it is for references that are relocated from one document to the next. -/
theorem located_relocateText (absolute : isAbsolute base = true) :
    (∀ context document pointer : String, IsFilePath context.toList → IsRelative document →
      Path.normalize (Path.join (directoryOf context.toList) document.toList) ≠ [] →
      ∃ placed : String,
        relocateText context (document ++ "#" ++ pointer) = placed ++ "#" ++ pointer ∧
        Path.normalize placed.toList = placed.toList ∧
        located base placed.toList =
          located (Path.directory (located base context.toList)) document.toList ∧
        ('#' ∉ context.toList → IsDocument placed ∧
          Text.splitOnce? '#' (relocateText context (document ++ "#" ++ pointer)).toList =
            some (placed.toList, pointer.toList))) ∧
    ∀ context references last, Relocates context references last →
      located base last.toList = references.foldl
        (fun file reference => located (Path.directory file) reference.1.toList)
        (located base context.toList) := by
  refine ⟨fun context document pointer file isRelative named => ?_,
    fun context references last relocates => relocates.located absolute⟩
  have relocated := relocateText_eq isRelative context pointer
  generalize isPlaced : String.ofList
    (Path.normalize (Path.join (directoryOf context.toList) document.toList)) = placed at relocated
  have written := congrArg String.toList isPlaced
  rw [String.toList_ofList] at written
  have nonempty : placed ≠ "" := fun empty => named (by rw [written, empty]; rfl)
  refine ⟨placed, relocated, written ▸ Path.normalize_normalize _, ?_, fun unmarked => ?_⟩
  · rw [← written, located_placed absolute file isRelative]
  · have isDocument := isDocument_placed isRelative unmarked written.symm nonempty
    rw [relocated, toList_append_pointer]
    exact ⟨isDocument, Text.splitOnce?_append isDocument.unmarked _⟩

theorem located_relocateText_shared :
    isAbsolute "/srv/api/../v1".toList = true ∧ IsFilePath "../../../common/types.json".toList ∧
    IsRelative "./x/../../shared/money.json" ∧ IsRelative "iso/../units.json" ∧
    (∃ placed : String, relocateText "../../../common/types.json"
        ("./x/../../shared/money.json" ++ "#" ++ "/Money") = placed ++ "#" ++ "/Money" ∧
      IsDocument placed ∧
      located "/srv/api/../v1".toList placed.toList = "/shared/money.json".toList) ∧
    Relocates "../../../common/types.json"
      [("./x/../../shared/money.json", "/Money"), ("iso/../units.json", "/Unit")]
      "../../../shared/units.json" ∧
    located "/srv/api/../v1".toList "../../../shared/units.json".toList =
      "/shared/units.json".toList := by
  have absolute : isAbsolute "/srv/api/../v1".toList = true := by decide +kernel
  have file : IsFilePath "../../../common/types.json".toList :=
    ⟨by decide +kernel, by decide +kernel, by decide +kernel, by decide +kernel⟩
  have fileToo : IsFilePath "../../../shared/money.json".toList :=
    ⟨by decide +kernel, by decide +kernel, by decide +kernel, by decide +kernel⟩
  have isRelative : IsRelative "./x/../../shared/money.json" :=
    ⟨by decide +kernel, by decide +kernel, by decide +kernel, by decide +kernel⟩
  have isRelativeToo : IsRelative "iso/../units.json" :=
    ⟨by decide +kernel, by decide +kernel, by decide +kernel, by decide +kernel⟩
  have relocates : Relocates "../../../common/types.json"
      [("./x/../../shared/money.json", "/Money"), ("iso/../units.json", "/Unit")]
      "../../../shared/units.json" :=
    .next file isRelative (by decide +kernel) (.next fileToo isRelativeToo (by decide +kernel)
      (.done _))
  obtain ⟨one, all⟩ := located_relocateText absolute
  obtain ⟨placed, relocated, -, same, further⟩ :=
    one _ _ "/Money" file isRelative (by decide +kernel)
  have last := all _ _ _ relocates
  exact ⟨absolute, file, isRelative, isRelativeToo,
    ⟨placed, relocated, (further (by decide +kernel)).1, same.trans (by decide +kernel)⟩,
    relocates, last.trans (by decide +kernel)⟩

end Reference

end EntityMapping
