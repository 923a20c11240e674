import EntityMapping.Proofs.ReferenceKeys
import EntityMapping.Proofs.RelocatedReferences

/-!
References as they are spelled. A pointer is spelled by its segments, each with the escapes that it
needs; it is read as just these segments, whatever characters they have. So every entity with a
name, and every place in a document that can be named, has a reference that leads to it, and every
reference that can be read has one spelling that is made from what it points at.
-/

set_option autoImplicit false
set_option relaxedAutoImplicit false

namespace EntityMapping

theorem Text.splitOnce?_eq_none_iff {separator : Char} {text : List Char} :
    splitOnce? separator text = none ↔ separator ∉ text := by
  induction text with
  | nil => simp [splitOnce?]
  | cons c rest ih =>
    by_cases same : c = separator
    · simp [splitOnce?, same]
    · simp [splitOnce?, same, ih, Ne.symm same]

/-- A normalized path is no segment for the same directory: that is left out. -/
theorem Path.normalize_ne_here (path : List Char) : normalize path ≠ here := by
  intro isHere
  have again := normalize_normalize path
  rw [isHere] at again
  exact absurd again (by decide)

namespace Reference

variable {name document text : String} {segments : List String} {reference : Reference}

theorem toList_escaped (key : String) : (escaped key).toList = key.toList.flatMap escape := by
  rw [escaped, String.toList_ofList]

/-- A pointer to segments: each of them escaped, with slashes between them. -/
def spelledPointer (segments : List String) : String :=
  "/" ++ String.intercalate "/" (segments.map escaped)

theorem toList_spelledPointer (segments : List String) : (spelledPointer segments).toList =
    '/' :: Text.join '/' ((segments.map escaped).map String.toList) := by
  have slash : "/".toList = ['/'] := rfl
  rw [spelledPointer, String.toList_append, String.toList_intercalate, slash,
    Text.intercalate_eq_join, List.singleton_append]

theorem spelledPointer_singleton (segment : String) :
    spelledPointer [segment] = "/" ++ escaped segment := by
  simp [spelledPointer]

theorem spelledPointer_cons_cons (first second : String) (more : List String) :
    spelledPointer (first :: second :: more) =
      "/" ++ escaped first ++ spelledPointer (second :: more) := by
  rw [← String.toList_inj, String.toList_append, String.toList_append, toList_spelledPointer,
    toList_spelledPointer]
  simp [Text.join_cons_cons]

/-- A pointer that is spelled from segments is cut into what these are spelled as. -/
theorem split_spelled (nonempty : segments ≠ []) :
    Text.split '/' (Text.join '/' ((segments.map escaped).map String.toList)) =
      (segments.map escaped).map String.toList := by
  refine Text.split_join (by simpa using nonempty) fun piece member => ?_
  obtain ⟨spelling, among, rfl⟩ := List.mem_map.mp member
  obtain ⟨segment, -, rfl⟩ := List.mem_map.mp among
  exact (spells_escaped segment).single

theorem decode_spelled (segments : List String) :
    ((segments.map escaped).map String.toList).map decodeSegment = segments.map String.toList := by
  rw [List.map_map, List.map_map]
  refine List.map_congr_left fun segment _ => ?_
  change decodeSegment (escaped segment).toList = segment.toList
  rw [toList_escaped, decodeSegment_escape]

/-- A pointer that is spelled from segments is read as these segments. -/
theorem pointerSegments_spelled (nonempty : segments ≠ [])
    (each : ∀ segment ∈ segments, segment ≠ "") (text : String) :
    pointerSegments text (spelledPointer segments).toList =
      .ok (segments.map String.toList) := by
  have noneEmpty : (segments.map String.toList).any List.isEmpty = false := by
    rw [List.any_map, List.any_eq_false]
    intro segment member isEmpty
    exact each segment member (String.toList_eq_nil_iff.mp (List.isEmpty_iff.mp isEmpty))
  rw [toList_spelledPointer]
  unfold pointerSegments
  simp only [split_spelled nonempty, decode_spelled, noneEmpty, Bool.false_eq_true, if_false]

/-- Behind the mark alone stands a pointer to an entity. -/
theorem parse_marked (pointer : String) : parse ("#" ++ pointer) =
    pointerSegments ("#" ++ pointer) pointer.toList >>= ofLocalSegments ("#" ++ pointer) := by
  have written : ("#" ++ pointer).toList = '#' :: pointer.toList := by simp
  unfold parse
  split
  · rename_i rest marked
    rw [written] at marked
    obtain ⟨-, rfl⟩ := List.cons.inj marked
    rfl
  · rename_i unmarked
    exact absurd written (unmarked _)

/-- Behind a path and the mark stands a pointer into the document at the path, unless that is a web
address or nothing is left of it. -/
theorem parse_document (unmarked : '#' ∉ document.toList) (nonempty : document ≠ "")
    (pointer : String) : parse (document ++ "#" ++ pointer) =
      if isAddress document.toList = true then
        .error (.notImplemented (.remoteAddress (document ++ "#" ++ pointer)))
      else if Path.normalize document.toList = [] then
        .error (.notFound (.noDocument (document ++ "#" ++ pointer)))
      else pointerSegments (document ++ "#" ++ pointer) pointer.toList >>= fun segments =>
        .ok (.remote (Path.normalized document) (segments.map String.ofList)) := by
  have written := toList_append_pointer document pointer
  unfold parse
  split
  · rename_i rest marked
    obtain ⟨c, more, start⟩ := List.exists_cons_of_ne_nil
      (fun empty => nonempty (String.toList_eq_nil_iff.mp empty))
    rw [written, start, List.cons_append] at marked
    obtain ⟨rfl, -⟩ := List.cons.inj marked
    exact absurd (start ▸ List.mem_cons_self) unmarked
  · rw [written, Text.splitOnce?_append unmarked]
    simp only [Path.normalize_ne_here, decide_false, Bool.or_false, decide_eq_true_eq,
      Path.normalized]
    rfl

/-- A path that is not empty leads to no entity, whatever is left of it. -/
theorem parse_document_ne_entity (unmarked : '#' ∉ document.toList) (nonempty : document ≠ "")
    {pointer : String} : parse (document ++ "#" ++ pointer) ≠ .ok (.entity name) := by
  intro parsed
  rw [parse_document unmarked nonempty] at parsed
  split at parsed
  · cases parsed
  split at parsed
  · cases parsed
  obtain ⟨segments, -, same⟩ := bind_eq_ok.mp parsed
  cases same

/-- Without the mark nothing is a reference. -/
theorem parse_unmarked (unmarked : '#' ∉ text.toList) :
    parse text = .error (.notFound (.noFragment text)) := by
  unfold parse
  split
  · rename_i pointer marked
    exact absurd (marked ▸ List.mem_cons_self) unmarked
  · rw [Text.splitOnce?_eq_none_iff.mpr unmarked]

/-- How a text can be made up: the mark begins it, or it has none, or it is cut at the first one. -/
theorem shapes (text : String) : (∃ pointer, text = "#" ++ pointer) ∨ '#' ∉ text.toList ∨
    ∃ document pointer, document ≠ "" ∧ '#' ∉ document.toList ∧
      text = document ++ "#" ++ pointer := by
  cases cut : Text.splitOnce? '#' text.toList with
  | none => exact .inr (.inl (Text.splitOnce?_eq_none_iff.mp cut))
  | some parts =>
    obtain ⟨path, pointer⟩ := parts
    have isText : text = String.ofList path ++ "#" ++ String.ofList pointer := by
      rw [← String.toList_inj, toList_append_pointer, Text.eq_append_of_splitOnce? cut]
      simp
    by_cases empty : path = []
    · subst empty
      exact .inl ⟨_, by simpa using isText⟩
    · exact .inr (.inr ⟨_, _, by simpa using empty,
        by simpa using Text.not_mem_of_splitOnce? cut, isText⟩)

/-- A reference to an entity is the mark and a pointer to one segment, or to the entity among the
schemas of the components. -/
theorem parse_eq_entity : parse text = .ok (.entity name) ↔ ∃ pointer found,
    text = "#" ++ pointer ∧ pointerSegments text pointer.toList = .ok found ∧
      ofLocalSegments text found = .ok (.entity name) := by
  constructor
  · intro parsed
    obtain ⟨pointer, rfl⟩ | unmarked | ⟨document, pointer, nonempty, unmarked, rfl⟩ := shapes text
    · rw [parse_marked] at parsed
      obtain ⟨found, read, named⟩ := bind_eq_ok.mp parsed
      exact ⟨pointer, found, rfl, read, named⟩
    · rw [parse_unmarked unmarked] at parsed
      cases parsed
    · exact absurd parsed (parse_document_ne_entity unmarked nonempty)
  · rintro ⟨pointer, found, rfl, read, named⟩
    rw [parse_marked, read, ok_bind, named]

/-- The reference to what a reference points at: the mark and the name of an entity, or a document,
the mark and a pointer. -/
def spelled : Reference → String
  | .entity name => "#" ++ spelledPointer [name]
  | .remote document pointer => document ++ "#" ++ spelledPointer pointer

theorem parse_spelled_entity (nonempty : name ≠ "") :
    parse ("#" ++ spelledPointer [name]) = .ok (.entity name) := by
  have each : ∀ segment ∈ [name], segment ≠ "" := by simpa using nonempty
  rw [parse_marked, pointerSegments_spelled (List.cons_ne_nil _ _) each, ok_bind]
  simp [ofLocalSegments]

theorem parse_spelled_component (nonempty : name ≠ "") :
    parse ("#" ++ spelledPointer ["components", "schemas", name]) = .ok (.entity name) := by
  have each : ∀ segment ∈ ["components", "schemas", name], segment ≠ "" := by simpa using nonempty
  rw [parse_marked, pointerSegments_spelled (List.cons_ne_nil _ _) each, ok_bind]
  simp [ofLocalSegments]

theorem parse_spelled_remote (unmarked : '#' ∉ document.toList)
    (notAddress : isAddress document.toList = false)
    (named : Path.normalize document.toList ≠ []) (nonempty : segments ≠ [])
    (each : ∀ segment ∈ segments, segment ≠ "") :
    parse (document ++ "#" ++ spelledPointer segments) =
      .ok (.remote (Path.normalized document) segments) := by
  have isPath : document ≠ "" := by
    rintro rfl
    exact named rfl
  have noAddress : ¬ isAddress document.toList = true := Bool.eq_false_iff.mp notAddress
  rw [parse_document unmarked isPath, if_neg noAddress, if_neg named,
    pointerSegments_spelled nonempty each, ok_bind, List.map_map]
  simp [Function.comp_def]

/-- The name of an entity that is read is not empty. -/
theorem IsWritten.name_ne (written : (entity name).IsWritten) : name ≠ "" := by
  obtain ⟨text, parsed⟩ := written
  obtain ⟨pointer, found, -, read, named⟩ := parse_eq_entity.mp parsed
  have each := (pointerSegments_eq_ok read).2
  unfold ofLocalSegments at named
  split at named
  · rename_i segment
    obtain rfl := Reference.entity.inj (Except.ok.inj named)
    simpa using each
  · split at named
    · rename_i segment _
      obtain rfl := Reference.entity.inj (Except.ok.inj named)
      simpa using each segment (by simp)
    · cases named
  · cases named

/-- The segments of a pointer that is read are not empty. -/
theorem IsWritten.segment_ne (written : (remote document segments).IsWritten) :
    ∀ segment ∈ segments, segment ≠ "" := by
  obtain ⟨text, parsed⟩ := written
  obtain ⟨path, written, found, -, -, -, -, read, rfl⟩ := parse_eq_remote parsed
  intro segment member
  obtain ⟨chars, among, rfl⟩ := List.mem_map.mp member
  simpa using (pointerSegments_eq_ok read).2 chars among

/-- What a reference that can be read points at is what its own spelling points at. -/
theorem parse_spelled_iff (reference : Reference) :
    parse reference.spelled = .ok reference ↔ reference.IsWritten := by
  refine ⟨fun parsed => ⟨_, parsed⟩, fun written => ?_⟩
  cases reference with
  | entity name => exact parse_spelled_entity written.name_ne
  | remote document segments =>
    obtain ⟨normal, unmarked, nonempty, -⟩ := isDocument_iff.mp written.isDocument
    have notAddress : isAddress document.toList = false := normal ▸ isAddress_normalize _
    have isSame : Path.normalized document = document := by
      rw [Path.normalized, normal, String.ofList_toList]
    have hasSegments : segments ≠ [] := by
      rintro rfl
      exact written.pointer_ne_nil rfl
    rw [spelled, parse_spelled_remote unmarked notAddress (normal.symm ▸ nonempty) hasSegments
      written.segment_ne, isSame]

/-- Every target has a spelling, and pointers are read as what they are spelled from. A name that is
not empty, escaped, stands for the entity behind the mark, and among the schemas of the components;
looking it up finds just what is registered under it. Behind the mark and a path that is no web
address and that something is left of, segments that are not empty, escaped, stand for themselves in
the document at the normalized path. So every reference that can be read is read from its own
spelling too. -/
theorem parse_spelled :
    (∀ name, name ≠ "" →
      ∀ text ∈ ["#/" ++ escaped name, "#/components/schemas/" ++ escaped name],
        parse text = .ok (.entity name) ∧
        ∀ registry : Registry, registry.lookUp text = match registry.get? name with
          | some schema => .ok (name, schema)
          | none => .error (.notFound (.missingEntity text))) ∧
    (∀ document : String, '#' ∉ document.toList → isAddress document.toList = false →
      Path.normalize document.toList ≠ [] →
      ∀ segments, segments ≠ [] → (∀ segment ∈ segments, segment ≠ "") →
        parse (document ++ "#/" ++ String.intercalate "/" (segments.map escaped)) =
          .ok (.remote (Path.normalized document) segments)) ∧
    ∀ reference : Reference, parse reference.spelled = .ok reference ↔ reference.IsWritten := by
  have marked : ∀ rest : String, "#" ++ ("/" ++ rest) = "#/" ++ rest := by
    intro rest
    rw [← String.append_assoc]
    rfl
  refine ⟨fun name nonempty text member => ?_, fun document unmarked notAddress named segments
    nonempty each => ?_, parse_spelled_iff⟩
  · have parsed : parse text = .ok (.entity name) := by
      rcases List.mem_cons.mp member with rfl | later
      · rw [← marked, ← spelledPointer_singleton]
        exact parse_spelled_entity nonempty
      · obtain rfl := List.mem_singleton.mp later
        have written : "#/components/schemas/" ++ escaped name =
            "#" ++ spelledPointer ["components", "schemas", name] := by
          have plain : escaped "components" = "components" := by decide +kernel
          have plainToo : escaped "schemas" = "schemas" := by decide +kernel
          rw [spelledPointer_cons_cons, spelledPointer_cons_cons, spelledPointer_singleton, plain,
            plainToo, ← String.toList_inj]
          simp
        rw [written]
        exact parse_spelled_component nonempty
    refine ⟨parsed, fun registry => ?_⟩
    have led : registry.lookUp text = registry.target text (.entity name) := by
      rw [Registry.lookUp, parsed, ok_bind]
    exact led
  · have spelling := parse_spelled_remote unmarked notAddress named nonempty each
    rwa [spelledPointer, String.append_assoc, marked, ← String.append_assoc] at spelling

/-- A registry with one name, in which escapes are meant as they stand. -/
def glossary : Registry where
  entries := [("~01/a#", .obj [("type", .str "integer")])]
  place := none
  documents := Documents.empty

theorem parse_spelled_glossary :
    parse "#/~001~1a#" = .ok (.entity "~01/a#") ∧
    glossary.lookUp "#/components/schemas/~001~1a#" =
      .ok ("~01/a#", .obj [("type", .str "integer")]) ∧
    '#' ∉ "./x/../terms.json".toList ∧ isAddress "./x/../terms.json".toList = false ∧
    parse "./x/../terms.json#/~001/a~1b/#" = .ok (.remote "terms.json" ["~01", "a/b", "#"]) ∧
    (remote "terms.json" ["~01", "a/b", "#"]).spelled = "terms.json#/~001/a~1b/#" ∧
    parse "terms.json#/~001/a~1b/#" = .ok (.remote "terms.json" ["~01", "a/b", "#"]) := by
  obtain ⟨entities, remotes, spellings⟩ := parse_spelled
  have isEscaped : escaped "~01/a#" = "~001~1a#" := by decide +kernel
  have both := entities "~01/a#" (by decide)
  rw [isEscaped] at both
  have unmarked : '#' ∉ "./x/../terms.json".toList := by decide +kernel
  have notAddress : isAddress "./x/../terms.json".toList = false := by decide +kernel
  have isRemote := remotes "./x/../terms.json" unmarked notAddress (by decide +kernel)
    ["~01", "a/b", "#"] (by decide) (by decide)
  have written : "./x/../terms.json" ++ "#/" ++
      String.intercalate "/" (["~01", "a/b", "#"].map escaped) =
        "./x/../terms.json#/~001/a~1b/#" := by decide +kernel
  have normal : Path.normalized "./x/../terms.json" = "terms.json" := by decide +kernel
  rw [written, normal] at isRemote
  have isSpelled : (remote "terms.json" ["~01", "a/b", "#"]).spelled =
      "terms.json#/~001/a~1b/#" := by decide +kernel
  have again := (spellings (.remote "terms.json" ["~01", "a/b", "#"])).mpr ⟨_, isRemote⟩
  rw [isSpelled] at again
  exact ⟨(both _ (by decide +kernel)).1, (both _ (by decide +kernel)).2 glossary, unmarked,
    notAddress, isRemote, isSpelled, again⟩

end Reference

end EntityMapping
