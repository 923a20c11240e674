import Mathlib
import EntityMapping.Proofs.Chains
import EntityMapping.Proofs.LocalComposition
import EntityMapping.Proofs.NamedDocuments
import EntityMapping.Proofs.Relocation

/-!
Following references through another document. A document whose references all stay within it says
the same wherever it is read: what its schemas amount to, reached through a reference to the
document, is what they amount to in the registry that the document is by itself, relocated.
-/

set_option autoImplicit false
set_option relaxedAutoImplicit false

namespace EntityMapping

open Reference (IsDocument RequireTexts Spells relocate relocateField relocateFields within)

namespace Json

variable {key : String}

/-- A reference that is a text is to a key of the same document. -/
def refersWithin (key : String) (value : Json) : Bool :=
  match value with
  | .str text => key ≠ "$ref" || Reference.isWithin text
  | _ => true

/-- Whether every reference in a value is to a key of the same document, and every list of
required properties in it holds texts only. -/
def isSelfContained (value : Json) : Bool :=
  value.everyField fun key value => refersWithin key value && requiresTexts key value

theorem isSelfContained_of_get? {fields : Keyed Json} {value : Json}
    (whole : (Json.obj fields).isSelfContained = true) (found : Keyed.get? fields key = some value) :
    refersWithin key value = true ∧ value.isSelfContained = true := by
  obtain ⟨holds, inside⟩ := everyField_obj.mp whole _ (Keyed.mem_of_get? found)
  exact ⟨(Bool.and_eq_true_iff.mp holds).1, inside⟩

theorem isSelfContained_of_mem {items : List Json} {item : Json}
    (whole : (Json.arr items).isSelfContained = true) (member : item ∈ items) :
    item.isSelfContained = true :=
  everyField_arr.mp whole item member

theorem requireTexts_of_isSelfContained {fields : Keyed Json}
    (whole : (Json.obj fields).isSelfContained = true) :
    RequireTexts fields := fun field member =>
  (Bool.and_eq_true_iff.mp (everyField_obj.mp whole field member).1).2

theorem one_le_size (value : Json) : 1 ≤ value.size := by
  cases value <;> simp [size]

theorem sizeOfFields_eq_sum (fields : Keyed Json) :
    sizeOfFields fields = (fields.map fun field => field.2.size).sum := by
  induction fields with
  | nil => rfl
  | cons field rest ih => rw [sizeOfFields, ih, List.map_cons, List.sum_cons]

theorem length_le_sizeOfFields (fields : Keyed Json) : fields.length ≤ sizeOfFields fields := by
  have each : ∀ size ∈ fields.map fun field => field.2.size, 1 ≤ size :=
    List.forall_mem_map.mpr fun field _ => field.2.one_le_size
  rw [sizeOfFields_eq_sum]
  exact (List.length_map _).symm.trans_le (List.length_le_sum_of_one_le _ each)

end Json

/-- What a path counts for among the documents. -/
def Finding.weight (finding : Finding) : Nat :=
  match finding.outcome with
  | .ok fields => 1 + (Json.obj fields).size
  | .error _ => 1

namespace Documents

theorem find_eq_ok {documents : Documents} {path : String} {root : Keyed Json} :
    documents.find path = .ok root ↔ ∃ finding,
      Keyed.get? documents.findings path = some finding ∧ finding.outcome = .ok root := by
  unfold find
  cases Keyed.get? documents.findings path <;> simp

theorem size_eq_sum (documents : Documents) :
    documents.size = (documents.findings.map fun entry => entry.2.weight).sum := by
  rw [List.sum_eq_foldl, List.foldl_map, size]
  congr 1
  funext total entry
  obtain ⟨path, ⟨outcome, kept⟩⟩ := entry
  cases outcome <;> simp [Finding.weight, Nat.add_assoc]

/-- A document that is found counts with all of its fields. -/
theorem length_le_size {documents : Documents} {path : String} {entries : Keyed Json}
    (found : documents.find path = .ok entries) : entries.length ≤ documents.size := by
  obtain ⟨finding, present, outcome⟩ := find_eq_ok.mp found
  have fields := Json.length_le_sizeOfFields entries
  have counted : finding.weight ≤ documents.size := by
    rw [size_eq_sum]
    exact List.single_le_sum (fun _ _ => Nat.zero_le _) _
      (List.mem_map_of_mem (Keyed.mem_of_get? present))
  rw [Finding.weight, outcome] at counted
  simp only [Json.size] at counted
  omega

end Documents

namespace Registry

variable {registry inside : Registry} {document key segment name : String} {entries : Keyed Json}
  {hops more : Nat} {visited : List String} {schema : Json}

/-- From the place of a registry, a document is found that is an object with some entries. -/
def Opens (registry : Registry) (document : String) (entries : Keyed Json) : Prop :=
  ∃ place, registry.place = some place ∧
    registry.documents.find (documentPath place document) = .ok entries

theorem Opens.length_le (opens : registry.Opens document entries) :
    entries.length ≤ registry.chainLimit := by
  obtain ⟨place, -, found⟩ := opens
  unfold chainLimit
  calc entries.length
    _ ≤ registry.documents.size + 1 := (Documents.length_le_size found).trans (Nat.le_succ _)
    _ ≤ (registry.documents.size + 1) * (registry.documents.size + 1) := Nat.le_mul_self _
    _ ≤ (_ + 2) * ((registry.documents.size + 1) * (registry.documents.size + 1)) :=
      Nat.le_mul_of_pos_left _ (Nat.succ_pos _)
    _ ≤ _ := Nat.le_add_left _ _

theorem Opens.target (opens : registry.Opens document entries) (text key : String) :
    registry.target text (.remote document [key]) =
      match Keyed.get? entries key with
      | some schema => .ok (key, relocate document schema)
      | none => .error (.notFound (.missingSegment text key document)) := by
  obtain ⟨place, isPlace, found⟩ := opens
  simp only [Registry.target, isPlace, found, Except.mapError, ok_bind, descend, Json.get?,
    Json.fields?, Option.bind_some]
  cases Keyed.get? entries key <;> simp

/-- The text by which a chain recognizes a key of a document. -/
def keyIn (document key : String) : String := (Reference.remote document [key]).key

theorem keyIn_injective (document : String) : Function.Injective (keyIn document) := by
  intro key other same
  simpa [keyIn, Reference.key] using same

/-- Where a reference to a key of a document leads, with the targets before it on the chain. -/
theorem flattenTarget_remote (opens : registry.Opens document entries)
    (isDocument : IsDocument document) (spells : Spells segment key) (nonempty : segment ≠ "") :
    registry.flattenTarget none hops visited name (.str (document ++ within segment)) =
      if keyIn document key ∈ visited then
        .error (.malformedSchema (.circular (visited ++ [keyIn document key])))
      else match Keyed.get? entries key with
        | none => .error (.notFound (.missingSegment (document ++ within segment) key document))
        | some schema => match hops with
          | 0 => .error (.notFound (.endless (document ++ within segment)))
          | fewer + 1 => registry.flattenFrom none fewer (visited ++ [keyIn document key]) key
              (relocate document schema) := by
  have parse := isDocument.parse_within spells
  rw [if_neg nonempty] at parse
  rw [flattenTarget_text, parse, ok_bind, if_neg (by simp), opens.target]
  simp only [List.contains_iff_mem, ← keyIn.eq_def]
  split
  · rfl
  · cases Keyed.get? entries key with
    | none => rfl
    | some schema => cases hops <;> rfl

/-- Keywords that are found through a document and within it: the same, relocated. Their lists of
required properties hold texts only, so they can be merged alike. -/
structure FieldsRelocated (document : String) (outer inner : Keyed Json) : Prop where
  same : outer = relocateFields document inner
  texts : RequireTexts inner

/-- What a schema amounts to through a document and within it. -/
structure FlatRelocated (document : String) (outer inner : FlatSchema) : Prop where
  name : outer.name = inner.name
  fields : FieldsRelocated document outer.fields inner.fields

/-- Merging what fragments amount to through a document and within it comes to the same. -/
theorem fieldsRelocated_merge {outers inners : List (Keyed Json)} {beside : Keyed Json}
    (each : List.Forall₂ (FieldsRelocated document) outers inners) (texts : RequireTexts beside) :
    FieldsRelocated document (mergeFragments (outers ++ [relocateFields document beside]))
      (mergeFragments (inners ++ [beside])) := by
  have relocated : outers = inners.map (relocateFields document) ∧
      ∀ inner ∈ inners, RequireTexts inner := by
    induction each with
    | nil => simp
    | cons here _ ih =>
      obtain ⟨rfl, textsHere⟩ := here
      obtain ⟨rfl, textsLater⟩ := ih
      exact ⟨rfl, List.forall_mem_cons.mpr ⟨textsHere, textsLater⟩⟩
  obtain ⟨rfl, textsInners⟩ := relocated
  have allTexts : ∀ fragment ∈ inners ++ [beside], RequireTexts fragment :=
    List.forall_mem_append.mpr ⟨textsInners, List.forall_mem_singleton.mpr texts⟩
  refine ⟨?_, .mergeFragments allTexts⟩
  rw [Reference.relocateFields_mergeFragments allTexts, List.map_append, List.map_cons,
    List.map_nil]

section SelfContained

variable {target : Json} (opens : registry.Opens document inside.entries)
  (isDocument : IsDocument document)

include opens isDocument

/-- A reference within the document leads through it to what it leads to within it, relocated,
unless its target is on the chain. -/
theorem flattenTarget_relocate {related : FlatSchema → FlatSchema → Prop}
    (refers : Json.refersWithin "$ref" target = true)
    (chain : ChainWithin inside.names visited hops)
    (chainToo : ChainWithin inside.names visited more)
    (next : ∀ fewer others key schema, fewer < hops →
      Keyed.get? inside.entries key = some schema →
      ChainWithin inside.names (visited ++ [key]) fewer →
      ChainWithin inside.names (visited ++ [key]) others →
      AlikeInKind related
        (registry.flattenFrom none fewer ((visited ++ [key]).map (keyIn document)) key
          (relocate document schema))
        (inside.flattenFrom none others (visited ++ [key]) key schema)) :
    AlikeInKind related
      (registry.flattenTarget none hops (visited.map (keyIn document)) name
        (relocateField document "$ref" target))
      (inside.flattenTarget none more visited name target) := by
  cases isText : target.string? with
  | none =>
    have isTextToo : (relocate document target).string? = none := by
      rw [Reference.string?_relocate, isText]
    rw [Reference.relocateField_of_not_text isText, flattenTarget_of_not_text isTextToo,
      flattenTarget_of_not_text isText]
    exact .error rfl
  | some text =>
    obtain rfl : target = .str text := by cases target <;> simp_all [Json.string?]
    obtain ⟨segment, nonempty, single, rfl⟩ : ∃ segment, segment ≠ "" ∧
        '/' ∉ segment.toList ∧ text = within segment :=
      Reference.isWithin_iff.mp (by simpa [Json.refersWithin] using refers)
    obtain ⟨key, spells⟩ : ∃ key, Spells segment key := ⟨_, single, rfl⟩
    have parse := Reference.parse_within spells
    rw [if_neg nonempty] at parse
    have relocated : relocateField document "$ref" (.str (within segment)) =
        .str (document ++ within segment) := by
      simp [relocateField, Reference.relocateText_within]
    have onChain : keyIn document key ∈ visited.map (keyIn document) ↔ key ∈ visited :=
      List.mem_map_of_injective (keyIn_injective document)
    rw [relocated, flattenTarget_remote opens isDocument spells nonempty,
      flattenTarget_entity parse]
    by_cases met : key ∈ visited
    · rw [if_pos (onChain.mpr met), if_pos met]
      exact .error rfl
    rw [if_neg (mt onChain.mp met), if_neg met, Registry.get?]
    cases registered : Keyed.get? inside.entries key with
    | none => exact .error rfl
    | some schema =>
      have member : key ∈ inside.names := Keyed.mem_keys_of_get? registered
      obtain ⟨fewer, rfl, prolonged⟩ := chain.prolong member met
      obtain ⟨others, rfl, prolongedToo⟩ := chainToo.prolong member met
      have arrived := next fewer others key schema (Nat.lt_succ_self fewer) registered prolonged
        prolongedToo
      rw [List.map_append] at arrived
      exact arrived

/-- Flattening a relocated schema comes to the same as flattening it within its document. The
chains before both have the same keys, and both may be prolonged by enough references. -/
theorem flattenFrom_relocate (whole : (Json.obj inside.entries).isSelfContained = true)
    (selfContained : schema.isSelfContained = true)
    (chain : ChainWithin inside.names visited hops)
    (chainToo : ChainWithin inside.names visited more) :
    AlikeInKind (FlatRelocated document)
      (registry.flattenFrom none hops (visited.map (keyIn document)) name (relocate document schema))
      (inside.flattenFrom none more visited name schema) := by
  induction hops, schema using Json.byFollowing generalizing more visited name with
  | notObject hops schema notObject =>
    have notObjectToo : (relocate document schema).fields? = none := by
      rw [Reference.fields?_relocate, notObject, Option.map_none]
    rw [flattenFrom_notObject notObjectToo, flattenFrom_notObject notObject]
    exact .error rfl
  | plain hops own noReference noFragments =>
    rw [relocate, flattenFrom_plain noReference noFragments,
      flattenFrom_plain (Reference.get?_relocateFields_of_none noReference)
        (Reference.get?_relocateFields_of_none noFragments)]
    exact .ok ⟨rfl, rfl, Json.requireTexts_of_isSelfContained selfContained⟩
  | reference hops own target reference shorter =>
    have referenceToo : Keyed.get? (relocateFields document own) "$ref" =
        some (relocateField document "$ref" target) := by
      rw [Reference.get?_relocateFields, reference, Option.map_some]
    rw [relocate, flattenFrom_reference referenceToo, flattenFrom_reference reference]
    refine flattenTarget_relocate opens isDocument
      (Json.isSelfContained_of_get? selfContained reference).1 chain chainToo ?_
    intro fewer others key schema less registered prolonged prolongedToo
    exact shorter fewer less (Json.isSelfContained_of_get? whole registered).2 prolonged prolongedToo
  | malformed hops own value noReference written noList =>
    have noListToo : (relocate document value).items? = none := by
      rw [Reference.items?_relocate, noList, Option.map_none]
    rw [relocate, flattenFrom_malformed (Reference.get?_relocateFields_of_none noReference)
      (Reference.get?_relocateFields_of_some written (by decide)) noListToo,
      flattenFrom_malformed noReference written noList]
    exact .error rfl
  | fragments hops own items noReference written ih =>
    have writtenToo : Keyed.get? (relocateFields document own) "allOf" =
        some (.arr (items.map (relocate document))) := by
      rw [Reference.get?_relocateFields_of_some written (by decide), relocate,
        Reference.relocateItems_eq_map]
    have list := (Json.isSelfContained_of_get? selfContained written).2
    rw [relocate, flattenFrom_fragments noReference written,
      flattenFrom_fragments (Reference.get?_relocateFields_of_none noReference) writtenToo]
    have flats : AlikeInKind (List.Forall₂ (FieldsRelocated document))
        ((items.map (relocate document)).mapM fun item =>
          (registry.flattenFrom none hops (visited.map (keyIn document)) name item).map
            FlatSchema.fields)
        (items.mapM fun item =>
          (inside.flattenFrom none more visited name item).map FlatSchema.fields) :=
      .mapM fun item member =>
        (ih item member (Json.isSelfContained_of_mem list member) chain chainToo).map
          fun _ _ found => found.fields
    refine flats.bind fun outers inners each => ?_
    rw [← Reference.relocateFields_without]
    exact .ok ⟨rfl, fieldsRelocated_merge each
      ((Json.requireTexts_of_isSelfContained selfContained).without "allOf")⟩

end SelfContained

/-- A reference that spells no key cannot be read, through a document or within it. -/
theorem flatten_empty_alike {related : FlatSchema → FlatSchema → Prop}
    (isDocument : IsDocument document) (name : String) :
    AlikeInKind related (registry.flatten name (.obj [("$ref", .str (document ++ within ""))]))
      (inside.flatten name (.obj [("$ref", .str (within ""))])) := by
  have spells : Spells "" "" := ⟨by decide, rfl⟩
  have parse := Reference.parse_within spells
  have parseToo := isDocument.parse_within spells
  rw [if_pos rfl] at parse parseToo
  rw [flatten, flatten, flattenWithout, flattenWithout, flattenFrom_reference rfl,
    flattenFrom_reference rfl, flattenTarget_of_unread ((Reference.read_text _).trans parse),
    flattenTarget_of_unread ((Reference.read_text _).trans parseToo)]
  exact .error rfl

/-- Let every reference in a document be to a key of the document, and every list of required
properties in it hold texts only. A reference to one of its keys through the document, from any
registry that finds it, amounts to what the reference to the key amounts to in the registry that
the document is by itself, relocated; where one fails so does the other, with an error of the same
kind. Every key can be referred to, and it does not matter how it is spelled. -/
theorem flatten_remote {documents : Documents} (opens : registry.Opens document entries)
    (isDocument : IsDocument document)
    (selfContained : (Json.obj entries).isSelfContained = true)
    (made : Registry.ofValue documents (.obj entries) = .ok inside) (key : String) :
    (∃ segment, Spells segment key) ∧ ∀ segment, Spells segment key → ∀ name,
      AlikeInKind
        (fun outer inner => outer.name = inner.name ∧
          outer.schema = relocate document inner.schema)
        (registry.flatten name (.obj [("$ref", .str (document ++ within segment))]))
        (inside.flatten name (.obj [("$ref", .str (within segment))])) := by
  refine ⟨⟨_, Reference.spells_escaped key⟩, fun segment spells name => ?_⟩
  obtain rfl : entries = inside.entries := by rw [← Except.ok.inj made]
  by_cases empty : segment = ""
  · rw [empty]
    exact flatten_empty_alike isDocument name
  have outside : relocate document (.obj [("$ref", .str (within segment))]) =
      .obj [("$ref", .str (document ++ within segment))] := by
    simp [relocate, relocateFields, relocateField, Reference.relocateText_within]
  have isWithin := Reference.isWithin_iff.mpr ⟨segment, empty, spells.single, rfl⟩
  have schemaToo : (Json.obj [("$ref", .str (within segment))]).isSelfContained = true := by
    simp [Json.isSelfContained, Json.everyField, Json.everyFieldOf, Json.refersWithin,
      Json.requiresTexts, isWithin]
  have length : inside.names.length = List.length inside.entries := List.length_map _
  have flattened : AlikeInKind (FlatRelocated document)
      (registry.flatten name (relocate document (.obj [("$ref", .str (within segment))])))
      (inside.flatten name (.obj [("$ref", .str (within segment))])) :=
    flattenFrom_relocate opens isDocument selfContained schemaToo
      (.start (length ▸ opens.length_le)) (.start inside.length_names_le)
  rw [outside] at flattened
  refine flattened.mono fun outer inner found => ⟨found.name, ?_⟩
  rw [FlatSchema.schema, FlatSchema.schema, relocate, found.fields.same]

/-- A document about the staff of a company. -/
def personnel : Keyed Json := [
  ("Person", .obj [("type", .str "object"),
    ("properties", .obj [("manager", .obj [("$ref", .str "#/Team~1Lead")])]),
    ("required", .arr [.str "manager"])]),
  ("Team/Lead", .obj [("allOf", .arr [.obj [("$ref", .str "#/Person")]]),
    ("required", .arr [.str "manager", .str "team"])])]

/-- A registry that finds the document below its own directory. -/
def headquarters : Registry where
  entries := []
  place := some "company/spec.json"
  documents := ⟨FileTree.empty, [("company/shared/staff.json", ⟨.ok personnel, false⟩)]⟩

theorem flatten_remote_personnel : headquarters.Opens "shared/staff.json" personnel ∧
    IsDocument "shared/staff.json" ∧ (Json.obj personnel).isSelfContained = true ∧
    ∃ found, headquarters.flatten "boss" (.obj [("$ref", .str "shared/staff.json#/Team~1Lead")]) =
        .ok found ∧ found.name = "Team/Lead" ∧
      found.schema = .obj [("type", .str "object"),
        ("properties", .obj [("manager", .obj [("$ref", .str "shared/staff.json#/Team~1Lead")])]),
        ("required", .arr [.str "manager", .str "team"])] := by
  have path : documentPath "company/spec.json" "shared/staff.json" = "company/shared/staff.json" := by
    cbv
  have opens : headquarters.Opens "shared/staff.json" personnel := ⟨_, rfl, by rw [path]; rfl⟩
  have isDocument : IsDocument "shared/staff.json" :=
    ⟨"./shared/staff.json#/Person", ["Person"], rfl⟩
  have selfContained : (Json.obj personnel).isSelfContained = true := by decide +kernel
  have spells : Spells "Team~1Lead" "Team/Lead" := ⟨by decide +kernel, by cbv⟩
  have written : "shared/staff.json" ++ within "Team~1Lead" = "shared/staff.json#/Team~1Lead" := by
    decide +kernel
  have amounts : Registry.flatten ⟨personnel, none, Documents.empty⟩ "boss"
      (.obj [("$ref", .str (within "Team~1Lead"))]) = .ok ⟨"Team/Lead", [("type", .str "object"),
        ("properties", .obj [("manager", .obj [("$ref", .str "#/Team~1Lead")])]),
        ("required", .arr [.str "manager", .str "team"])]⟩ := by cbv
  have alike := (flatten_remote opens isDocument selfContained
    (show Registry.ofValue Documents.empty (.obj personnel) = .ok _ from rfl) "Team/Lead").2
    "Team~1Lead" spells "boss"
  rw [amounts, written] at alike
  obtain ⟨found, flattened, name, schema⟩ := alike.of_ok_right
  exact ⟨opens, isDocument, selfContained, found, flattened, name, schema.trans (by cbv)⟩

end Registry

end EntityMapping
