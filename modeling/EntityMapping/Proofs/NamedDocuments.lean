import EntityMapping.Proofs.Outcome
import EntityMapping.Proofs.Paths
import EntityMapping.Schema.Reference

/-!
References to a key. A key can be spelled as a segment of a pointer, with the characters that
pointers use escaped. Behind the mark alone, the segment refers to the key in the same document;
behind a document that a reference named before, to the key in that document.
-/

set_option autoImplicit false
set_option relaxedAutoImplicit false

namespace EntityMapping

namespace Text

variable {separator : Char} {text before after : List Char}

theorem splitOnce?_append (absent : separator ∉ before) (after : List Char) :
    splitOnce? separator (before ++ separator :: after) = some (before, after) := by
  induction before with
  | nil => simp [splitOnce?]
  | cons c rest ih =>
    obtain ⟨different, absentLater⟩ := not_or.mp (List.mem_cons.not.mp absent)
    simp [splitOnce?, Ne.symm different, ih absentLater]

theorem not_mem_of_splitOnce? (cut : splitOnce? separator text = some (before, after)) :
    separator ∉ before := by
  induction text generalizing before with
  | nil => cases cut
  | cons c rest ih =>
    by_cases same : c = separator
    · simp only [splitOnce?, same, if_true, Option.some.injEq, Prod.mk.injEq] at cut
      simp [← cut.1]
    · simp only [splitOnce?, same, if_false, Option.map_eq_some_iff] at cut
      obtain ⟨⟨earlier, later⟩, cutLater, written⟩ := cut
      obtain ⟨rfl, rfl⟩ := Prod.mk.inj written
      exact List.not_mem_cons_of_ne_of_not_mem (Ne.symm same) (ih cutLater)

theorem eq_append_of_strip? {beginning : List Char} (stripped : strip? beginning text = some after) :
    text = beginning ++ after := by
  induction beginning generalizing text with
  | nil => exact Option.some.inj stripped
  | cons b beginning ih =>
    cases text with
    | nil => cases stripped
    | cons c text =>
      by_cases same : b = c
      · subst same
        simpa [strip?] using ih (by simpa [strip?] using stripped)
      · simp [strip?, same] at stripped

end Text

namespace Reference

variable {document segment key text : String} {first second substitute : Char}

theorem replacePair_cons_of_ne {c : Char} (different : c ≠ first) (rest : List Char) :
    replacePair first second substitute (c :: rest) =
      c :: replacePair first second substitute rest := by
  cases rest <;> simp [replacePair, different]

theorem replacePair_eq_nil_iff (segment : List Char) :
    replacePair first second substitute segment = [] ↔ segment = [] := by
  unfold replacePair
  split
  · split <;> simp
  · rfl

theorem decodeSegment_eq_nil_iff (segment : List Char) : decodeSegment segment = [] ↔ segment = [] :=
  (replacePair_eq_nil_iff _).trans (replacePair_eq_nil_iff _)

/-- A segment of a pointer stands for a key: it is the key once its escapes are decoded. -/
structure Spells (segment key : String) : Prop where
  single : '/' ∉ segment.toList
  decoded : String.ofList (decodeSegment segment.toList) = key

/-- The escape of a character that a pointer cannot have in a segment as it is. -/
def escape (c : Char) : List Char :=
  if c = '~' then ['~', '0'] else if c = '/' then ['~', '1'] else [c]

/-- A key as a segment of a pointer. -/
def escaped (key : String) : String := String.ofList (key.toList.flatMap escape)

theorem decodeSegment_escape (key : List Char) : decodeSegment (key.flatMap escape) = key := by
  have slashes : ∀ key : List Char, replacePair '~' '1' '/' (key.flatMap escape) =
      key.flatMap fun c => if c = '~' then ['~', '0'] else [c] := by
    intro key
    induction key with
    | nil => rfl
    | cons c rest ih =>
      by_cases tilde : c = '~'
      · subst tilde
        simp [escape, replacePair, replacePair_cons_of_ne, ih]
      · by_cases slash : c = '/'
        · subst slash
          simp [escape, replacePair, ih]
        · simp [escape, tilde, slash, replacePair_cons_of_ne tilde, ih]
  have tildes : ∀ key : List Char,
      replacePair '~' '0' '~' (key.flatMap fun c => if c = '~' then ['~', '0'] else [c]) = key := by
    intro key
    induction key with
    | nil => rfl
    | cons c rest ih =>
      by_cases tilde : c = '~'
      · subst tilde
        simp [replacePair, ih]
      · simp [tilde, replacePair_cons_of_ne tilde, ih]
  rw [decodeSegment, slashes, tildes]

/-- Every key has a spelling. -/
theorem spells_escaped (key : String) : Spells (escaped key) key where
  single := by
    simp only [escaped, String.toList_ofList, List.mem_flatMap, not_exists, not_and]
    intro c _
    unfold escape
    split
    · decide
    split
    · decide
    · rename_i slash
      simpa using Ne.symm slash
  decoded := by simp [escaped, decodeSegment_escape]

/-- The reference to a key of the same document, which a segment spells. -/
def within (segment : String) : String := "#/" ++ segment

theorem toList_within (segment : String) : (within segment).toList = '#' :: '/' :: segment.toList := by
  simp [within]

theorem toList_append_within (document segment : String) : (document ++ within segment).toList =
    document.toList ++ '#' :: '/' :: segment.toList := by
  simp [toList_within]

/-- A reference to a key of the same document refers to it from elsewhere too once the document is
written before it. -/
theorem relocateText_within (document segment : String) :
    relocateText document (within segment) = document ++ within segment := by
  simp [relocateText, toList_within]

theorem pointerSegments_segment (spells : Spells segment key) (text : String) :
    pointerSegments text ('/' :: segment.toList) =
      if segment = "" then .error (.notFound (.emptySegment text))
      else .ok [decodeSegment segment.toList] := by
  rw [pointerSegments, Text.split_of_not_mem spells.single]
  by_cases empty : segment = ""
  · subst empty
    rfl
  · have nonempty : segment.toList ≠ [] := by simpa using empty
    simp [empty, decodeSegment_eq_nil_iff, nonempty]

theorem parse_within (spells : Spells segment key) :
    parse (within segment) =
      if segment = "" then .error (.notFound (.emptySegment (within segment)))
      else .ok (.entity key) := by
  unfold parse
  split
  · rename_i pointer marked
    obtain ⟨-, rfl⟩ := List.cons.inj ((toList_within segment).symm.trans marked)
    rw [pointerSegments_segment spells]
    split
    · rfl
    · rw [ok_bind, ofLocalSegments, spells.decoded]
  · rename_i unmarked
    exact absurd (toList_within segment) (unmarked _)

/-- Whether a reference is to a key of the same document, spelled as one segment that is not
empty. -/
def isWithin (text : String) : Bool :=
  match text.toList with
  | '#' :: '/' :: segment => segment ≠ [] && !segment.contains '/'
  | _ => false

theorem isWithin_iff : isWithin text = true ↔
    ∃ segment, segment ≠ "" ∧ '/' ∉ segment.toList ∧ text = within segment := by
  unfold isWithin
  split
  · rename_i segment written
    have spelled : text = within (String.ofList segment) := by
      rw [← String.toList_inj, written, toList_within, String.toList_ofList]
    constructor
    · intro isSegment
      refine ⟨String.ofList segment, ?_, ?_, spelled⟩ <;> simp_all
    · rintro ⟨other, nonempty, single, rfl⟩
      obtain rfl : segment = other.toList := by simpa [toList_within] using written.symm
      simpa [single] using nonempty
  · rename_i otherwise
    refine ⟨by simp, ?_⟩
    rintro ⟨segment, -, -, rfl⟩
    exact absurd (toList_within segment) (otherwise _)

theorem directoryOf_append {before last : List Char} (single : '/' ∉ last) :
    directoryOf (before ++ '/' :: last) = before := by
  have passed : ∀ c ∈ last.reverse, decide (c ≠ '/') = true := fun c member =>
    decide_eq_true fun same => single (same ▸ List.mem_reverse.mp member)
  rw [directoryOf, List.reverse_append, List.reverse_cons, List.append_assoc,
    List.dropWhile_append_of_pos passed]
  simp

/-- A document that a reference names. -/
def IsDocument (document : String) : Prop :=
  ∃ text pointer, parse text = .ok (.remote document pointer)

/-- A pointer that can be read is a slash and segments, which are decoded and not empty. -/
theorem pointerSegments_eq_ok {pointer : List Char} {segments : List (List Char)}
    (read : pointerSegments text pointer = .ok segments) :
    segments = (Text.split '/' pointer.tail).map decodeSegment ∧
      ∀ segment ∈ segments, segment ≠ [] := by
  unfold pointerSegments at read
  split at read
  · dsimp only at read
    split at read
    · cases read
    · rename_i noneEmpty
      obtain rfl := Except.ok.inj read
      refine ⟨rfl, fun segment member isEmpty => noneEmpty ?_⟩
      exact List.any_eq_true.mpr ⟨segment, member, List.isEmpty_iff.mpr isEmpty⟩
  · cases read

/-- A reference into a document is a path, which is normalized, the mark, and a pointer. -/
theorem parse_eq_remote {pointer : List String}
    (parsed : parse text = .ok (.remote document pointer)) :
    ∃ path written segments, Text.splitOnce? '#' text.toList = some (path, written) ∧
      document.toList = Path.normalize path ∧ Path.normalize path ≠ [] ∧
      Path.normalize path ≠ Path.here ∧ pointerSegments text written = .ok segments ∧
      pointer = segments.map String.ofList := by
  unfold parse at parsed
  split at parsed
  · obtain ⟨segments, -, named⟩ := bind_eq_ok.mp parsed
    unfold ofLocalSegments at named
    split at named
    · cases named
    · split at named <;> cases named
    · cases named
  split at parsed
  · cases parsed
  rename_i path written cut
  split at parsed
  · cases parsed
  dsimp only at parsed
  split at parsed
  · cases parsed
  rename_i named
  obtain ⟨segments, read, same⟩ := bind_eq_ok.mp parsed
  obtain ⟨rfl, rfl⟩ := Reference.remote.inj (Except.ok.inj same)
  obtain ⟨nonempty, moves⟩ := not_or.mp (by simpa using named)
  exact ⟨path, written, segments, cut, by simp, nonempty, moves, read, rfl⟩

theorem isAddress_normalize (path : List Char) : isAddress (Path.normalize path) = false := by
  have begins : ∀ beginning before : List Char, beginning = before ++ ['/', '/'] → before ≠ [] →
      '/' ∉ before → (Text.strip? beginning (Path.normalize path)).isSome = false := by
    rintro _ before rfl nonempty single
    refine Option.isSome_eq_false_iff.mpr (Option.isNone_iff_eq_none.mpr ?_)
    refine Option.eq_none_iff_forall_ne_some.mpr fun rest stripped => ?_
    have written := Text.eq_append_of_strip? stripped
    exact Path.normalize_ne_slashes nonempty single (by simpa using written)
  rw [isAddress, Bool.or_eq_false_iff]
  exact ⟨begins _ "http:".toList (by decide) (by decide) (by decide),
    begins _ "https:".toList (by decide) (by decide) (by decide)⟩

/-- Behind a normalized path, a segment refers to a key in the document that the path names. -/
theorem parse_append_within (normal : Path.normalize document.toList = document.toList)
    (unmarked : '#' ∉ document.toList) (nonempty : document.toList ≠ [])
    (moves : document.toList ≠ Path.here) (spells : Spells segment key) :
    parse (document ++ within segment) =
      if segment = "" then .error (.notFound (.emptySegment (document ++ within segment)))
      else .ok (.remote document [key]) := by
  have notAddress : isAddress document.toList = false := normal ▸ isAddress_normalize _
  unfold parse
  split
  · rename_i pointer marked
    obtain ⟨c, rest, start⟩ := List.exists_cons_of_ne_nil nonempty
    rw [toList_append_within, start, List.cons_append] at marked
    obtain ⟨rfl, -⟩ := List.cons.inj marked
    exact absurd (start ▸ List.mem_cons_self) unmarked
  · rw [toList_append_within, Text.splitOnce?_append unmarked]
    simp only [notAddress, normal, nonempty, moves, String.ofList_toList,
      pointerSegments_segment spells, Bool.false_eq_true, decide_false, Bool.or_self, if_false]
    split
    · rfl
    · simp [spells.decoded]

/-- References name documents by normalized paths without the mark: by all of them but those that
lead nowhere. -/
theorem isDocument_iff : IsDocument document ↔
    Path.normalize document.toList = document.toList ∧ '#' ∉ document.toList ∧
      document.toList ≠ [] ∧ document.toList ≠ Path.here := by
  constructor
  · rintro ⟨text, pointer, parsed⟩
    obtain ⟨path, written, segments, cut, isPath, nonempty, moves, -⟩ := parse_eq_remote parsed
    rw [isPath]
    refine ⟨Path.normalize_normalize path, fun marked => ?_, nonempty, moves⟩
    exact (Path.mem_of_mem_normalize marked).elim (by decide) (Text.not_mem_of_splitOnce? cut)
  · rintro ⟨normal, unmarked, nonempty, moves⟩
    have parsed := parse_append_within normal unmarked nonempty moves (spells_escaped "key")
    exact ⟨_, _, parsed.trans (if_neg (by decide))⟩

theorem IsDocument.normalize_toList (isDocument : IsDocument document) :
    Path.normalize document.toList = document.toList :=
  (isDocument_iff.mp isDocument).1

theorem IsDocument.unmarked (isDocument : IsDocument document) : '#' ∉ document.toList :=
  (isDocument_iff.mp isDocument).2.1

theorem IsDocument.parse_within (isDocument : IsDocument document) (spells : Spells segment key) :
    parse (document ++ within segment) =
      if segment = "" then .error (.notFound (.emptySegment (document ++ within segment)))
      else .ok (.remote document [key]) := by
  obtain ⟨normal, unmarked, nonempty, moves⟩ := isDocument_iff.mp isDocument
  exact parse_append_within normal unmarked nonempty moves spells

end Reference

end EntityMapping
