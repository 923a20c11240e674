import EntityMapping.Proofs.LocalComposition
import EntityMapping.Proofs.Relocation
import EntityMapping.Proofs.SpelledReferences

/-!
References that stay in documents. A reference that is found in a document is relocated: its path is
taken from the directory of the document, and normalized. Where the path leads back to where
documents are named from, nothing is left of it; the mark comes first then, and the pointer behind
it points into the registry. No other relocated reference does: it points into a document, or cannot
be read. So where no document has a reference whose path leads back, what a document says does not
depend on the entities of a registry.
-/

set_option autoImplicit false
set_option relaxedAutoImplicit false

namespace EntityMapping

namespace Path

variable {absolute : Bool} {kept segments : List Segment} {path base : List Char}

theorem render_eq_nil_iff (each : ∀ segment ∈ segments, IsKept segment) :
    render absolute segments = [] ↔ absolute = false ∧ segments = [] := by
  cases absolute with
  | true => simp [render]
  | false =>
    cases segments with
    | nil => simp [render, Text.join]
    | cons first rest =>
      obtain ⟨c, more, rfl⟩ := List.exists_cons_of_ne_nil (each first List.mem_cons_self).nonempty
      cases rest <;> simp [render, Text.join]

theorem normalize_eq_nil_iff : normalize path = [] ↔
    isAbsolute path = false ∧ normalSegments path = [] :=
  render_eq_nil_iff fun _ => isKept_of_mem_normalSegments

theorem length_foldl_push_up_ge (absolute : Bool) (count : Nat) (kept : List Segment) :
    kept.length ≤ ((List.replicate count up).foldl (push absolute) kept).length + count := by
  induction count generalizing kept with
  | zero => exact Nat.le_refl _
  | succ count ih =>
    have once : kept.length ≤ (push absolute kept up).length + 1 := by
      cases kept with
      | nil => exact Nat.zero_le _
      | cons last outer =>
        by_cases climbed : last = up
        · subst climbed
          cases absolute with
          | true => exact Nat.le_succ _
          | false => exact (Nat.le_succ _).trans (Nat.le_succ _)
        · rw [push_up_of_ne climbed, List.length_cons]
    have later := ih (push absolute kept up)
    rw [List.replicate_succ, List.foldl_cons]
    omega

/-- Climbing leaves nothing exactly if there are as many segments as it climbs, and each of them
names something. -/
theorem foldl_push_up_eq_nil_iff {count : Nat} (areKept : AreKept false kept) :
    (List.replicate count up).foldl (push false) kept = [] ↔ up ∉ kept ∧ kept.length = count := by
  constructor
  · intro isRoot
    have enough := length_foldl_push_up_ge false count kept
    rw [isRoot, List.length_nil, Nat.zero_add] at enough
    have counted := count_foldl_push_up areKept enough
    rw [isRoot, List.count_nil] at counted
    exact ⟨List.count_eq_zero.mp (by omega), by omega⟩
  · rintro ⟨noUp, rfl⟩
    have climbed : (List.replicate kept.length up).foldl (push false) (kept ++ []) = [] :=
      foldl_push_up_append noUp []
    rwa [List.append_nil] at climbed

/-- A path that climbs all the way that a directory leads down, and names nothing then. -/
structure LeadsBack (base path : List Char) : Prop where
  relative : isAbsolute path = false
  below : isAbsolute base = false ∧ up ∉ normalSegments base
  climbs : normalSegments path = List.replicate (normalSegments base).length up

/-- Nothing is left of a path that is taken from a directory exactly if it leads back. -/
theorem normalize_join_eq_nil_iff : normalize (join base path) = [] ↔ LeadsBack base path := by
  by_cases absolute : isAbsolute path = true
  · rw [join_of_not_below (.inl absolute), normalize_eq_nil_iff]
    exact ⟨fun ⟨relative, _⟩ => absurd absolute (by simp [relative]),
      fun back => absurd absolute (by simp [back.relative])⟩
  have relative : isAbsolute path = false := Bool.eq_false_iff.mpr absolute
  by_cases empty : base = []
  · subst empty
    rw [join_of_not_below (.inr rfl), normalize_eq_nil_iff]
    exact ⟨fun ⟨_, noneLeft⟩ => ⟨relative, ⟨rfl, List.not_mem_nil⟩, noneLeft⟩,
      fun back => ⟨relative, back.climbs⟩⟩
  rw [normalize_eq_nil_iff, isAbsolute_join empty relative, ← List.reverse_eq_nil_iff,
    normalSegments_join empty relative, List.append_eq_nil_iff, List.reverse_eq_nil_iff]
  constructor
  · rintro ⟨relativeBase, noneNamed, isRoot⟩
    have areKept := areKept_normalSegments base
    rw [relativeBase] at isRoot areKept
    obtain ⟨noUp, length⟩ := (foldl_push_up_eq_nil_iff areKept).mp isRoot
    refine ⟨relative, ⟨relativeBase, mt List.mem_reverse.mpr noUp⟩, ?_⟩
    rw [normalSegments_eq_append, noneNamed, List.append_nil, ← length, List.length_reverse]
  · rintro ⟨-, ⟨relativeBase, noUp⟩, isClimbing⟩
    have areKept := areKept_normalSegments base
    rw [relativeBase] at areKept ⊢
    refine ⟨rfl, ?_, (foldl_push_up_eq_nil_iff areKept).mpr ⟨mt List.mem_reverse.mp noUp, ?_⟩⟩
    · rw [named, isClimbing, List.filter_replicate]
      simp
    · rw [climbs, isClimbing, List.count_replicate_self, List.length_reverse]

end Path

namespace Reference

variable {context path pointer reference text name : String}

/-- The path of a document that is found in another one, as it is named from where that one is. -/
def placed (context path : String) : String :=
  String.ofList (Path.normalize (Path.join (directoryOf context.toList) path.toList))

theorem placed_eq_empty_iff : placed context path = "" ↔
    Path.LeadsBack (directoryOf context.toList) path.toList :=
  String.ofList_eq_empty_iff.trans Path.normalize_join_eq_nil_iff

/-- What is found in a document that is named without the mark is named without it, if it is found
so. -/
theorem unmarked_placed (unmarked : '#' ∉ context.toList) (unmarkedToo : '#' ∉ path.toList) :
    '#' ∉ (placed context path).toList := by
  intro marked
  rw [placed, String.toList_ofList] at marked
  rcases Path.mem_of_mem_normalize marked with slash | joined
  · exact absurd slash (by decide)
  rcases mem_of_mem_join joined with inDirectory | slash | inPath
  · exact unmarked (mem_of_mem_directoryOf inDirectory)
  · exact absurd slash (by decide)
  · exact unmarkedToo inPath

theorem relocateText_marked (context pointer : String) :
    relocateText context ("#" ++ pointer) = context ++ "#" ++ pointer := by
  have marked : ("#" ++ pointer).toList.head? = some '#' := by simp
  rw [relocateText, if_pos marked, String.append_assoc]

/-- A path without a pointer is relocated as one with an empty pointer. -/
theorem relocateText_unmarked (unmarked : '#' ∉ text.toList) (context : String) :
    relocateText context text =
      if isAddress text.toList = true then text else placed context text ++ "#" ++ "" := by
  have notWithin : text.toList.head? ≠ some '#' := fun isMark => unmarked (List.mem_of_head? isMark)
  split
  · rename_i address
    rw [relocateText, if_neg notWithin, if_pos address]
  · rename_i notAddress
    have cut : (Text.splitOnce? '#' text.toList).getD (text.toList, []) = (text.toList, []) := by
      rw [Text.splitOnce?_eq_none_iff.mpr unmarked, Option.getD_none]
    rw [relocateText_of_cut notWithin notAddress cut, ← String.toList_inj, toList_append_pointer,
      placed, String.toList_ofList, String.toList_ofList]
    rfl

/-- A text is cut at its first mark in one way. -/
theorem append_mark_inj {other behind : String} (unmarked : '#' ∉ path.toList)
    (unmarkedToo : '#' ∉ other.toList) (same : path ++ "#" ++ pointer = other ++ "#" ++ behind) :
    path = other ∧ pointer = behind := by
  have cut := Text.splitOnce?_append unmarked pointer.toList
  rw [← toList_append_pointer, same, toList_append_pointer, Text.splitOnce?_append unmarkedToo,
    Option.some.injEq, Prod.mk.injEq, String.toList_inj, String.toList_inj] at cut
  exact ⟨cut.1.symm, cut.2.symm⟩

/-- A text without the mark before a mark and a pointer is read as a reference to an entity only if
it is empty. -/
theorem parse_append_eq_entity (unmarked : '#' ∉ path.toList) :
    parse (path ++ "#" ++ pointer) = .ok (.entity name) ↔
      path = "" ∧ parse ("#" ++ pointer) = .ok (.entity name) := by
  by_cases empty : path = ""
  · rw [empty, String.empty_append]
    exact (and_iff_right rfl).symm
  · exact ⟨fun parsed => absurd parsed (parse_document_ne_entity unmarked empty),
      fun both => absurd both.1 empty⟩

/-- A reference in a document strays to an entity: its path leads back to where documents are named
from, and the pointer behind it is one to the entity. -/
def Strays (context reference name : String) : Prop :=
  ∃ path pointer, reference = path ++ "#" ++ pointer ∧ path ≠ "" ∧ '#' ∉ path.toList ∧
    isAddress path.toList = false ∧ Path.LeadsBack (directoryOf context.toList) path.toList ∧
    parse ("#" ++ pointer) = .ok (.entity name)

/-- A relocated reference leads to an entity exactly if the reference strays to it. -/
theorem parse_relocateText_eq_entity (isDocument : IsDocument context) :
    parse (relocateText context reference) = .ok (.entity name) ↔
      Strays context reference name := by
  have unmarkedContext := isDocument.unmarked
  obtain ⟨pointer, rfl⟩ | unmarked | ⟨path, pointer, nonempty, unmarked, rfl⟩ := shapes reference
  · -- A reference within the document is relocated behind its name, which is not empty.
    have named : context ≠ "" := by
      rintro rfl
      exact (isDocument_iff.mp isDocument).2.2.1 rfl
    rw [relocateText_marked, parse_append_eq_entity unmarkedContext]
    refine ⟨fun both => absurd both.1 named, ?_⟩
    rintro ⟨path, behind, same, nonempty, unmarked, -⟩
    have noPath : "#" ++ pointer = "" ++ "#" ++ pointer := by rw [String.empty_append]
    exact absurd (append_mark_inj unmarked (by decide) (same.symm.trans noPath)).1 nonempty
  · -- Without a mark there is no pointer, so nothing can be read.
    have noPointer : ¬ parse ("#" ++ "") = .ok (.entity name) := by
      rw [parse_marked]
      rintro ⟨⟩
    refine ⟨fun parsed => ?_, ?_⟩
    · rw [relocateText_unmarked unmarked] at parsed
      split at parsed
      · rw [parse_unmarked unmarked] at parsed
        cases parsed
      · rw [parse_append_eq_entity (unmarked_placed unmarkedContext unmarked)] at parsed
        exact absurd parsed.2 noPointer
    · rintro ⟨path, behind, rfl, -⟩
      simp at unmarked
  · rw [relocateText_document unmarked nonempty]
    constructor
    · intro parsed
      split at parsed
      · rename_i address
        rw [parse_document unmarked nonempty, if_pos address] at parsed
        cases parsed
      · rename_i notAddress
        obtain ⟨isEmpty, parsed⟩ :=
          (parse_append_eq_entity (unmarked_placed unmarkedContext unmarked)).mp parsed
        exact ⟨path, pointer, rfl, nonempty, unmarked, Bool.eq_false_iff.mpr notAddress,
          placed_eq_empty_iff.mp isEmpty, parsed⟩
    · rintro ⟨other, behind, same, -, unmarkedToo, notAddress, back, parsed⟩
      obtain ⟨rfl, rfl⟩ := append_mark_inj unmarked unmarkedToo same
      rw [if_neg (Bool.eq_false_iff.mp notAddress)]
      exact (parse_append_eq_entity (unmarked_placed unmarkedContext unmarked)).mpr
        ⟨placed_eq_empty_iff.mpr back, parsed⟩

/-- A reference that gives a path to a file, or any path that names something, does not stray. -/
theorem not_strays_of_named (unmarked : '#' ∉ path.toList) (names : Path.named path.toList ≠ []) :
    ¬ Strays context (path ++ "#" ++ pointer) name := by
  rintro ⟨other, behind, same, -, unmarkedToo, -, back, -⟩
  obtain ⟨rfl, rfl⟩ := append_mark_inj unmarked unmarkedToo same
  refine names ?_
  rw [Path.named, back.climbs, List.filter_replicate]
  simp

end Reference

/-- A reference is written somewhere in a value. -/
inductive Json.Mentions : Json → String → Prop
  | here {fields : Keyed Json} {text : String} : ("$ref", Json.str text) ∈ fields →
      Mentions (.obj fields) text
  | field {fields : Keyed Json} {key text : String} {value : Json} : (key, value) ∈ fields →
      Mentions value text → Mentions (.obj fields) text
  | item {items : List Json} {item : Json} {text : String} : item ∈ items → Mentions item text →
      Mentions (.arr items) text

namespace Reference

variable {context text : String} {value : Json}

/-- What a relocated value mentions is what the value mentions, relocated. -/
theorem mentions_relocate (mentioned : (relocate context value).Mentions text) :
    ∃ reference, value.Mentions reference ∧ text = relocateText context reference := by
  induction value using Json.byParts generalizing text with
  | scalar value noFields noItems =>
    rw [relocate_scalar noFields noItems] at mentioned
    cases mentioned <;> simp [Json.fields?, Json.items?] at noFields noItems
  | arr items ih =>
    rw [relocate, relocateItems_eq_map] at mentioned
    cases mentioned with
    | item member mentioned =>
      obtain ⟨item, inItems, rfl⟩ := List.mem_map.mp member
      obtain ⟨reference, inside, same⟩ := ih item inItems mentioned
      exact ⟨reference, .item inItems inside, same⟩
  | obj fields ih =>
    rw [relocate, relocateFields_eq_map] at mentioned
    cases mentioned with
    | here member =>
      obtain ⟨⟨key, value⟩, inFields, same⟩ := List.mem_map.mp member
      obtain ⟨rfl, isText⟩ := Prod.mk.inj same
      cases value with
      | str reference =>
        rw [relocateField, if_pos rfl] at isText
        exact ⟨reference, .here inFields, (Json.str.inj isText).symm⟩
      | _ => simp [relocateField] at isText
    | field member mentioned =>
      obtain ⟨⟨key, value⟩, inFields, same⟩ := List.mem_map.mp member
      obtain ⟨rfl, rfl⟩ := Prod.mk.inj same
      rcases relocateField_cases key value with ⟨reference, rfl, rfl, isText⟩ | relocated
      · rw [isText] at mentioned
        cases mentioned
      · rw [relocated] at mentioned
        obtain ⟨reference, inside, same⟩ := ih _ inFields mentioned
        exact ⟨reference, .field inFields inside, same⟩

end Reference

namespace Registry

open Reference (IsDocument Strays relocateText)

variable {registry other : Registry} {text document next : String} {pointer : List String}
  {value schema : Json}

/-- What is mentioned where a pointer leads is mentioned in the whole. -/
theorem mentions_of_descend {found : Json}
    (descended : descend text document pointer value = .ok found) {reference : String}
    (mentioned : found.Mentions reference) : value.Mentions reference := by
  induction pointer generalizing value with
  | nil =>
    obtain rfl := Except.ok.inj descended
    exact mentioned
  | cons segment rest ih =>
    rw [descend] at descended
    split at descended
    · rename_i inner present
      cases value with
      | obj fields => exact .field (Keyed.mem_of_get? present) (ih descended)
      | _ => cases present
    · cases descended

/-- A registry finds a reference in a document of some name. -/
def FindsIn (registry : Registry) (document reference : String) : Prop :=
  IsDocument document ∧ ∃ place root, registry.place = some place ∧
    registry.documents.find (documentPath place document) = .ok root ∧
    (Json.obj root).Mentions reference

/-- Every reference that a value mentions is found in a document, and is relocated. -/
def ComesFromDocuments (registry : Registry) (value : Json) : Prop :=
  ∀ text, value.Mentions text →
    ∃ document reference, registry.FindsIn document reference ∧
      text = relocateText document reference

/-- What a reference into a document leads to mentions what the document does, relocated. -/
theorem mentions_of_target (parse : Reference.parse text = .ok (.remote document pointer))
    (led : registry.target text (.remote document pointer) = .ok (next, schema))
    {written : String} (mentioned : schema.Mentions written) :
    ∃ reference, registry.FindsIn document reference ∧
      written = relocateText document reference := by
  obtain ⟨place, root, inner, placed, found, descended, -, rfl⟩ := target_remote_eq_ok.mp led
  obtain ⟨reference, inside, same⟩ := Reference.mentions_relocate mentioned
  exact ⟨reference, ⟨⟨text, pointer, parse⟩, place, root, placed, found,
    mentions_of_descend descended inside⟩, same⟩

theorem comesFromDocuments_of_target
    (parse : Reference.parse text = .ok (.remote document pointer))
    (led : registry.target text (.remote document pointer) = .ok (next, schema)) :
    registry.ComesFromDocuments schema := by
  intro written mentioned
  obtain ⟨reference, found, same⟩ := mentions_of_target parse led mentioned
  exact ⟨document, reference, found, same⟩

/-- No reference that is found in a document strays. -/
def Confined (registry : Registry) : Prop :=
  ∀ document reference, registry.FindsIn document reference →
    ∀ name, ¬ Strays document reference name

/-- A reference from a document leads into a document again. -/
theorem Confined.exists_remote (confined : registry.Confined)
    (comes : registry.ComesFromDocuments value) (mentioned : value.Mentions text)
    {parsed : Reference} (parse : Reference.parse text = .ok parsed) :
    ∃ document pointer, parsed = .remote document pointer := by
  obtain ⟨document, reference, found, rfl⟩ := comes text mentioned
  cases parsed with
  | entity name =>
    exact absurd ((Reference.parse_relocateText_eq_entity found.1).mp parse)
      (confined document reference found name)
  | remote document pointer => exact ⟨document, pointer, rfl⟩

/-- The parts of a schema from a document come from documents. -/
theorem Confined.of_composes {part : Json} (confined : registry.Confined)
    (parts : registry.Composes schema part) (comes : registry.ComesFromDocuments schema) :
    registry.ComesFromDocuments part := by
  induction parts with
  | self => exact comes
  | fragment _ written member _ ih =>
    exact ih fun text mentioned =>
      comes text (.field (Keyed.mem_of_get? written) (.item member mentioned))
  | reference reference parse led _ ih =>
    obtain ⟨document, pointer, rfl⟩ :=
      confined.exists_remote comes (.here (Keyed.mem_of_get? reference)) parse
    exact ih (comesFromDocuments_of_target parse led)

/-- Every reference that a schema from a document is composed of leads into a document. -/
theorem Confined.reaches_remote (confined : registry.Confined)
    (comes : registry.ComesFromDocuments schema) (reached : registry.ReachesReference schema text)
    {parsed : Reference} (parse : Reference.parse text = .ok parsed) :
    ∃ document pointer, parsed = .remote document pointer := by
  obtain ⟨own, parts, written⟩ := reached
  exact confined.exists_remote (confined.of_composes parts comes)
    (.here (Keyed.mem_of_get? written)) parse

/-- A reference into a document leads to the same from every registry that finds the same documents
from the same place. -/
theorem target_remote_congr (samePlace : other.place = registry.place)
    (sameDocuments : other.documents = registry.documents) :
    other.target text (.remote document pointer) =
      registry.target text (.remote document pointer) := by
  unfold target
  rw [samePlace, sameDocuments]

/-- Where the references of a document lead. Among the references that are relocated, those that
stray are read as references to entities, and no others; a path that names something does not
stray. So a reference in a schema from the document is a relocated reference of it, and it is read
as one to an entity just if it strays there. If no reference in a document strays, no entity is
composed into the schema, and it amounts to the same whatever entities there are. -/
theorem references_of_document (registry : Registry) (isDocument : IsDocument document) :
    (∀ reference name, Reference.parse (relocateText document reference) = .ok (.entity name) ↔
      Strays document reference name) ∧
    (∀ path : String, '#' ∉ path.toList → Path.named path.toList ≠ [] →
      ∀ pointer name, ¬ Strays document (path ++ "#" ++ pointer) name) ∧
    ∀ text pointer, Reference.parse text = .ok (.remote document pointer) →
      ∀ next schema, registry.lookUp text = .ok (next, schema) →
        (∀ written, schema.Mentions written → ∃ reference, registry.FindsIn document reference ∧
          ∀ name, Reference.parse written = .ok (.entity name) ↔ Strays document reference name) ∧
        (registry.Confined →
          (∀ name, ¬ registry.ReachesEntity schema name) ∧
          ∀ other : Registry, other.place = registry.place →
            other.documents = registry.documents → ∀ skip hops visited called,
              other.flattenFrom skip hops visited called schema =
                registry.flattenFrom skip hops visited called schema) := by
  refine ⟨fun reference name => Reference.parse_relocateText_eq_entity isDocument,
    fun path unmarked names pointer name => Reference.not_strays_of_named unmarked names,
    fun text pointer parse next schema led => ?_⟩
  rw [lookUp, parse, ok_bind] at led
  refine ⟨fun written mentioned => ?_, fun confined => ?_⟩
  · obtain ⟨reference, found, rfl⟩ := mentions_of_target parse led mentioned
    exact ⟨reference, found, fun name => Reference.parse_relocateText_eq_entity isDocument⟩
  have comes := comesFromDocuments_of_target parse led
  refine ⟨?_, fun other samePlace sameDocuments skip hops visited called =>
    flattenFrom_congr fun later parsed reached parseLater => ?_⟩
  · rintro name ⟨later, reached, parseLater⟩
    obtain ⟨_, _, same⟩ := confined.reaches_remote comes reached parseLater
    cases same
  · obtain ⟨_, _, rfl⟩ := confined.reaches_remote comes reached parseLater
    exact target_remote_congr samePlace sameDocuments

/-- A registry with a street of its own, that finds a map with another street and a road that is
given by a reference. -/
def gazetteer (reference : String) : Registry where
  entries := [("Street", .obj [("type", .str "string")])]
  place := some "spec.json"
  documents := ⟨FileTree.empty, [("map.json",
    ⟨.ok [("Road", .obj [("$ref", .str reference)]), ("Street", .obj [("type", .str "integer")])],
      false⟩)]⟩

/-- The one reference that is found in a document of the registry. -/
theorem eq_of_findsIn_gazetteer {reference : String}
    (found : (gazetteer text).FindsIn document reference) : reference = text := by
  obtain ⟨-, place, root, -, isRoot, mentioned⟩ := found
  have isMap : root = [("Road", .obj [("$ref", .str text)]),
      ("Street", .obj [("type", .str "integer")])] := by
    unfold Documents.find at isRoot
    split at isRoot
    · rename_i finding present
      obtain ⟨-, rfl⟩ := Prod.mk.inj (List.mem_singleton.mp (Keyed.mem_of_get? present))
      exact (Except.ok.inj isRoot).symm
    · cases isRoot
  subst isMap
  cases mentioned with
  | here member => simp at member
  | field member inside =>
    rcases List.mem_cons.mp member with isRoad | later
    · obtain ⟨rfl, rfl⟩ := Prod.mk.inj isRoad
      cases inside with
      | here member => simpa using member
      | field member inside =>
        obtain ⟨rfl, rfl⟩ := Prod.mk.inj (List.mem_singleton.mp member)
        cases inside
    · obtain ⟨rfl, rfl⟩ := Prod.mk.inj (List.mem_singleton.mp later)
      cases inside with
      | here member => simp at member
      | field member inside =>
        obtain ⟨rfl, rfl⟩ := Prod.mk.inj (List.mem_singleton.mp member)
        cases inside

/-- The road is the street of the map if the reference is within the map; it is the one of the
registry if a path that names nothing comes first. -/
theorem references_of_document_gazetteer :
    (gazetteer "#/Street").Confined ∧
      (∃ schema, (gazetteer "#/Street").lookUp "map.json#/Road" = .ok ("Road", schema) ∧
        ∀ name, ¬ (gazetteer "#/Street").ReachesEntity schema name) ∧
      Strays "map.json" "./#/Street" "Street" ∧
      ∃ schema, (gazetteer "./#/Street").lookUp "map.json#/Road" = .ok ("Road", schema) ∧
        (gazetteer "./#/Street").ReachesEntity schema "Street" := by
  have parse : Reference.parse "map.json#/Road" = .ok (.remote "map.json" ["Road"]) := rfl
  obtain ⟨relocated, -, schemas⟩ := references_of_document (gazetteer "#/Street") ⟨_, _, parse⟩
  have confined : (gazetteer "#/Street").Confined := by
    intro document reference found name
    rw [eq_of_findsIn_gazetteer found]
    rintro ⟨path, pointer, same, nonempty, unmarked, -⟩
    have noPath : path ++ "#" ++ pointer = "" ++ "#" ++ "/Street" := by
      rw [← same]
      rfl
    exact nonempty (Reference.append_mark_inj unmarked (by decide) noPath).1
  have led : (gazetteer "#/Street").lookUp "map.json#/Road" =
      .ok ("Road", .obj [("$ref", .str "map.json#/Street")]) := by
    rw [lookUp, parse, ok_bind]
    rfl
  have ledAstray : (gazetteer "./#/Street").lookUp "map.json#/Road" =
      .ok ("Road", .obj [("$ref", .str "#/Street")]) := by
    rw [lookUp, parse, ok_bind]
    rfl
  have isEntity : Reference.parse "#/Street" = .ok (.entity "Street") := rfl
  have isRelocated : relocateText "map.json" "./#/Street" = "#/Street" := by decide +kernel
  have strays : Strays "map.json" "./#/Street" "Street" := by
    refine (relocated _ _).mp ?_
    rw [isRelocated, isEntity]
  have composed :
      (gazetteer "./#/Street").ReachesEntity (.obj [("$ref", .str "#/Street")]) "Street" :=
    .self rfl isEntity
  have apart := ((schemas _ _ parse _ _ led).2 confined).1
  exact ⟨confined, ⟨_, led, apart⟩, strays, _, ledAstray, composed⟩

end Registry

end EntityMapping
