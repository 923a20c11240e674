import EntityMapping.Proofs.Chains
import EntityMapping.Proofs.NamedDocuments

/-!
What the key of a reference tells. A chain of references recognizes a target by a text: the name
of an entity, or a document and the segments of a pointer with slashes between them. The escapes of
a pointer have been decoded by then, and a name of an entity may be any text. So two references
have the same key if they are the same, and if a slash within a segment reads like one between two
segments, or a name like a document and a pointer. A chain that meets two such references is
reported as circular, though it does not come back to a target.
-/

set_option autoImplicit false
set_option relaxedAutoImplicit false

namespace EntityMapping

namespace Text

variable {separator : Char} {pieces others : List (List Char)}

/-- A joined text is cut where its pieces are joined, and where a piece has the separator. -/
theorem split_join_eq_flatMap (nonempty : pieces ≠ []) :
    split separator (join separator pieces) = pieces.flatMap (split separator) := by
  induction pieces with
  | nil => exact absurd rfl nonempty
  | cons first rest ih =>
    cases rest with
    | nil => simp [join]
    | cons second more =>
      rw [join_cons_cons, split_append, ih (List.cons_ne_nil _ _),
        @List.flatMap_cons _ _ first]

/-- Joined texts are the same if their pieces are, once cut at the separators within them. -/
theorem join_eq_join_iff (nonempty : pieces ≠ []) (nonemptyToo : others ≠ []) :
    join separator pieces = join separator others ↔
      pieces.flatMap (split separator) = others.flatMap (split separator) := by
  rw [← split_join_eq_flatMap nonempty, ← split_join_eq_flatMap nonemptyToo]
  refine ⟨congrArg _, fun same => ?_⟩
  rw [← join_split separator (join separator pieces), same, join_split]

theorem intercalate_eq_join (pieces : List (List Char)) :
    [separator].intercalate pieces = join separator pieces := by
  induction pieces with
  | nil => rfl
  | cons first rest ih =>
    cases rest with
    | nil => simp [join]
    | cons second more =>
      rw [List.intercalate_cons_cons, ih, join_cons_cons, List.append_assoc, List.singleton_append]

theorem eq_append_of_splitOnce? {text before after : List Char}
    (cut : splitOnce? separator text = some (before, after)) :
    text = before ++ separator :: after := by
  induction text generalizing before with
  | nil => cases cut
  | cons c rest ih =>
    by_cases same : c = separator
    · simp only [splitOnce?, same, if_true, Option.some.injEq, Prod.mk.injEq] at cut
      obtain ⟨rfl, rfl⟩ := cut
      rw [same, List.nil_append]
    · simp only [splitOnce?, same, if_false, Option.map_eq_some_iff] at cut
      obtain ⟨⟨earlier, later⟩, cutLater, written⟩ := cut
      obtain ⟨rfl, rfl⟩ := Prod.mk.inj written
      rw [ih cutLater, List.cons_append]

end Text

namespace Reference

variable {name document other text : String} {pointer pointerToo : List String}
  {first second parsed : Reference} {chain : List Reference}

/-- The pieces of a pointer: its segments, cut at the slashes within them. -/
def pieces (pointer : List String) : List (List Char) :=
  (pointer.map String.toList).flatMap (Text.split '/')

/-- The name of an entity reads like a document and a pointer into it. -/
def ReadsAs (name document : String) (pointer : List String) : Prop :=
  ∃ path, Text.splitOnce? '#' name.toList = some (document.toList, '/' :: path) ∧
    Text.split '/' path = pieces pointer

/-- Different references that a chain takes for the same: pointers into one document with the same
pieces, or an entity with a name that reads like the document and the pointer. -/
def Confused : Reference → Reference → Prop
  | .entity _, .entity _ => False
  | .entity name, .remote document pointer => ReadsAs name document pointer
  | .remote document pointer, .entity name => ReadsAs name document pointer
  | .remote document pointer, .remote other pointerToo =>
      document = other ∧ pointer ≠ pointerToo ∧ pieces pointer = pieces pointerToo

/-- A reference whose key tells how it is made up: the name of its entity has no mark, and the
segments of its pointer have no slashes. -/
def IsPlain : Reference → Prop
  | .entity name => '#' ∉ name.toList
  | .remote _ pointer => ∀ segment ∈ pointer, '/' ∉ segment.toList

/-- A reference that some text is read as. -/
def IsWritten (reference : Reference) : Prop := ∃ text, parse text = .ok reference

theorem toList_key_remote (document : String) (pointer : List String) :
    (remote document pointer).key.toList =
      document.toList ++ '#' :: '/' :: Text.join '/' (pointer.map String.toList) := by
  have slash : "/".toList = ['/'] := rfl
  simp [key, String.toList_intercalate, slash, Text.intercalate_eq_join]

theorem IsWritten.isDocument (written : (remote document pointer).IsWritten) :
    IsDocument document := by
  obtain ⟨text, parse⟩ := written
  exact ⟨text, pointer, parse⟩

/-- A pointer that is read has a segment. -/
theorem IsWritten.pointer_ne_nil (written : (remote document pointer).IsWritten) :
    pointer.map String.toList ≠ [] := by
  obtain ⟨text, parse⟩ := written
  obtain ⟨path, written, segments, -, -, -, -, read, rfl⟩ := parse_eq_remote parse
  obtain ⟨rfl, -⟩ := pointerSegments_eq_ok read
  simpa using Text.split_ne_nil '/' written.tail

theorem key_remote_eq_iff (written : (remote document pointer).IsWritten)
    (writtenToo : (remote other pointerToo).IsWritten) :
    (remote document pointer).key = (remote other pointerToo).key ↔
      document = other ∧ pieces pointer = pieces pointerToo := by
  rw [pieces, pieces, ← Text.join_eq_join_iff written.pointer_ne_nil writtenToo.pointer_ne_nil,
    ← String.toList_inj, toList_key_remote, toList_key_remote]
  constructor
  · intro same
    -- No document has the mark, so both keys are cut at the same one.
    have cut := Text.splitOnce?_append writtenToo.isDocument.unmarked
      ('/' :: Text.join '/' (pointerToo.map String.toList))
    rw [← same, Text.splitOnce?_append written.isDocument.unmarked, Option.some.injEq,
      Prod.mk.injEq, String.toList_inj, List.cons.injEq] at cut
    exact ⟨cut.1, cut.2.2⟩
  · rintro ⟨rfl, samePath⟩
    rw [samePath]

theorem eq_key_remote_iff (written : (remote document pointer).IsWritten) :
    name = (remote document pointer).key ↔ ReadsAs name document pointer := by
  rw [← String.toList_inj, toList_key_remote]
  constructor
  · intro same
    refine ⟨_, ?_, Text.split_join_eq_flatMap written.pointer_ne_nil⟩
    rw [same, Text.splitOnce?_append written.isDocument.unmarked]
  · rintro ⟨path, cut, samePieces⟩
    rw [Text.eq_append_of_splitOnce? cut, ← Text.join_split '/' path, samePieces, pieces,
      ← Text.split_join_eq_flatMap written.pointer_ne_nil, Text.join_split]

/-- References that are read have the same key if they are the same or are confused. -/
theorem key_eq_iff (written : first.IsWritten) (writtenToo : second.IsWritten) :
    first.key = second.key ↔ first = second ∨ first.Confused second := by
  cases first with
  | entity name =>
    cases second with
    | entity other => simp [key, Confused]
    | remote document pointer =>
      exact (eq_key_remote_iff writtenToo).trans (by simp [Confused, key])
  | remote document pointer =>
    cases second with
    | entity name =>
      exact eq_comm.trans ((eq_key_remote_iff written).trans (by simp [Confused, key]))
    | remote other pointerToo =>
      rw [key_remote_eq_iff written writtenToo, Confused, remote.injEq]
      by_cases samePointer : pointer = pointerToo
      · simp [samePointer]
      · simp [samePointer]

theorem pieces_of_isPlain (plain : (remote document pointer).IsPlain) :
    pieces pointer = pointer.map String.toList := by
  induction pointer with
  | nil => rfl
  | cons segment rest ih =>
    obtain ⟨single, later⟩ := List.forall_mem_cons.mp plain
    have inner : pieces rest = rest.map String.toList := ih later
    rw [List.map_cons, ← inner, pieces, List.map_cons, List.flatMap_cons,
      Text.split_of_not_mem single, List.singleton_append, pieces]

/-- The name of an entity that has no mark is not confused with anything, and pointers without
slashes in their segments are not confused with each other. -/
theorem not_confused_of_isPlain (plain : first.IsPlain) (plainToo : second.IsPlain) :
    ¬ first.Confused second := by
  have unread : ∀ {name document pointer}, (entity name).IsPlain →
      ¬ ReadsAs name document pointer := by
    rintro name document pointer unmarked ⟨path, cut, -⟩
    refine unmarked ?_
    rw [Text.eq_append_of_splitOnce? cut]
    exact List.mem_append_right _ List.mem_cons_self
  cases first with
  | entity name =>
    cases second with
    | entity other => exact id
    | remote document pointer => exact unread plain
  | remote document pointer =>
    cases second with
    | entity name => exact unread plainToo
    | remote other pointerToo =>
      rintro ⟨-, different, same⟩
      rw [pieces_of_isPlain plain, pieces_of_isPlain plainToo] at same
      exact different (List.map_injective_iff.mpr (fun _ _ => String.toList_inj.mp) same)

end Reference

open Reference (IsWritten IsPlain)

namespace Registry

variable {registry : Registry} {schema top target : Json} {own : Keyed Json} {items : List Json}
  {visited path : List String} {hops : Nat} {name text key next : String} {skip : Option String}
  {parsed first second : Reference} {chain : List Reference}

theorem exists_cause_of_descend {document : String} {pointer : List String} {value : Json}
    {e : SchemaError} (failed : descend text document pointer value = .error e) :
    ∃ cause, e = .notFound cause := by
  induction pointer generalizing value with
  | nil => cases failed
  | cons segment rest ih =>
    unfold descend at failed
    split at failed
    · exact ih failed
    · cases failed
      exact ⟨_, rfl⟩

/-- Where a reference leads nowhere, something is not found. -/
theorem exists_cause_of_target {e : SchemaError} (failed : registry.target text parsed = .error e) :
    ∃ cause, e = .notFound cause := by
  unfold target at failed
  split at failed
  · split at failed <;> cases failed
    exact ⟨_, rfl⟩
  split at failed
  · cases failed
    exact ⟨_, rfl⟩
  rename_i document pointer _ place _
  dsimp only at failed
  cases found : registry.documents.find (documentPath place document) with
  | error cause =>
    simp only [found, Except.mapError, error_bind, Except.error.injEq] at failed
    exact ⟨cause, failed.symm⟩
  | ok root =>
    cases descended : descend text document pointer (.obj root) with
    | error other =>
      simp only [found, Except.mapError, descended, ok_bind, error_bind, Except.error.injEq]
        at failed
      exact failed ▸ exists_cause_of_descend descended
    | ok inner => simp [found, Except.mapError, descended] at failed

/-- A reference is reported to come back to its chain exactly if its key is on it. -/
theorem arrive_circular_iff :
    (∃ path, registry.arrive visited text parsed = .error (.malformedSchema (.circular path))) ↔
      parsed.key ∈ visited := by
  unfold arrive
  by_cases met : parsed.key ∈ visited
  · simp [met]
  simp only [List.contains_iff_mem, met, if_false, iff_false, not_exists]
  intro path failed
  cases led : registry.target text parsed with
  | error e =>
    obtain ⟨cause, rfl⟩ := exists_cause_of_target led
    simp [led] at failed
  | ok found => simp [led] at failed

/-- Composing a schema comes from one reference to another: the first one leads to a target that is
composed of the second one. -/
def ComesTo (registry : Registry) (schema : Json) (first second : Reference) : Prop :=
  ∃ text next target later, registry.ReachesReference schema text ∧
    Reference.parse text = .ok first ∧ registry.target text first = .ok (next, target) ∧
    registry.ReachesReference target later ∧ Reference.parse later = .ok second

/-- A key on the chain that leads to a part of a schema: that of a reference of the schema, with a
target that the part belongs to. -/
def LeadsInto (registry : Registry) (top part : Json) (key : String) : Prop :=
  ∃ text first next target, registry.ReachesReference top text ∧
    Reference.parse text = .ok first ∧ first.key = key ∧
    registry.target text first = .ok (next, target) ∧ registry.Composes target part

theorem LeadsInto.trans {part inner : Json} (leads : registry.LeadsInto top part key)
    (further : registry.Composes part inner) : registry.LeadsInto top inner key := by
  obtain ⟨text, first, next, target, reached, parse, isKey, led, parts⟩ := leads
  exact ⟨text, first, next, target, reached, parse, isKey, led, parts.trans further⟩

/-- How following a reference can report a circle: its key is on the chain, or its target reports the
circle. -/
theorem flattenTarget_eq_circular {target : Json}
    (failed : registry.flattenTarget skip hops visited name target =
      .error (.malformedSchema (.circular path))) :
    ∃ text parsed, target = .str text ∧ Reference.parse text = .ok parsed ∧
      (parsed.key ∈ visited ∨ ∃ next schema fewer, hops = fewer + 1 ∧
        registry.target text parsed = .ok (next, schema) ∧
        registry.flattenFrom skip fewer (visited ++ [parsed.key]) next schema =
          .error (.malformedSchema (.circular path))) := by
  cases read : Reference.read target with
  | error e =>
    obtain rfl := Except.error.inj ((flattenTarget_of_unread read).symm.trans failed)
    cases Reference.isAboutChain_of_read read
  | ok parsed =>
    obtain ⟨text, rfl, parse⟩ := Reference.read_eq_ok.mp read
    rw [flattenTarget_text, parse, ok_bind] at failed
    refine ⟨text, parsed, rfl, parse, ?_⟩
    split at failed
    · cases failed
    split at failed
    · rename_i met
      exact .inl (List.contains_iff_mem.mp met)
    cases led : registry.target text parsed with
    | error e =>
      obtain ⟨cause, rfl⟩ := exists_cause_of_target led
      simp [led] at failed
    | ok found =>
      rw [led, ok_bind] at failed
      cases hops with
      | zero => cases failed
      | succ fewer => exact .inr ⟨found.1, found.2, fewer, rfl, rfl, failed⟩

/-- Flattening reports a circle only where it comes from one reference to another with the same
key. -/
theorem exists_comesTo_of_circular (parts : registry.Composes top schema)
    (leads : ∀ key ∈ visited, registry.LeadsInto top schema key)
    (failed : registry.flattenFrom skip hops visited name schema =
      .error (.malformedSchema (.circular path))) :
    ∃ first second, registry.ComesTo top first second ∧ first.key = second.key := by
  induction hops, schema using Json.byFollowing generalizing visited name with
  | notObject hops schema notObject =>
    rw [flattenFrom_notObject notObject] at failed
    cases failed
  | plain hops own noReference noFragments =>
    rw [flattenFrom_plain noReference noFragments] at failed
    cases failed
  | malformed hops own value noReference written noList =>
    rw [flattenFrom_malformed noReference written noList] at failed
    cases failed
  | fragments hops own items noReference written ih =>
    obtain ⟨item, member, failedItem⟩ :=
      exists_fragment_of_flattenFrom_eq_error noReference written failed
    have inItem : registry.Composes (.obj own) item :=
      .fragment noReference written member (.self item)
    exact ih item member (parts.trans inItem)
      (fun key onChain => (leads key onChain).trans inItem) failedItem
  | reference hops own target reference shorter =>
    rw [flattenFrom_reference reference] at failed
    obtain ⟨text, parsed, rfl, parse, met | onwards⟩ := flattenTarget_eq_circular failed
    · -- The reference is the second one; the first one stands on the chain.
      obtain ⟨before, first, next, target, reached, read, isKey, led, below⟩ := leads _ met
      exact ⟨first, parsed, ⟨before, next, target, text, reached, read, led,
        ⟨own, below, reference⟩, parse⟩, isKey⟩
    · obtain ⟨next, target, fewer, rfl, led, failedThere⟩ := onwards
      have inTarget : registry.Composes (.obj own) target :=
        .reference reference parse led (.self target)
      refine shorter fewer (Nat.lt_succ_self fewer) (parts.trans inTarget)
        (fun key onChain => ?_) failedThere
      rcases List.mem_append.mp onChain with before | last
      · exact (leads key before).trans inTarget
      · exact ⟨text, parsed, next, target, ⟨own, parts, reference⟩, parse,
          (List.mem_singleton.mp last).symm, led, .self target⟩

theorem ComesTo.isWritten (comes : registry.ComesTo schema first second) :
    first.IsWritten ∧ second.IsWritten := by
  obtain ⟨text, _, _, later, _, parse, _, _, parseLater⟩ := comes
  exact ⟨⟨text, parse⟩, ⟨later, parseLater⟩⟩

/-- A chain of references is reported to be circular exactly if it has the same reference before,
or one that is confused with it. With plain references it is the same one. A schema that fails to
flatten for a circle comes from a reference to the same one, or to one that is confused with it. -/
theorem circular_iff_confused (registry : Registry) (chain : List Reference)
    (written : ∀ earlier ∈ chain, earlier.IsWritten) (text : String) (parsed : Reference)
    (parse : Reference.parse text = .ok parsed) :
    (∀ earlier ∈ chain, earlier.key = parsed.key ↔ earlier = parsed ∨ earlier.Confused parsed) ∧
      ((∃ path, registry.arrive (chain.map Reference.key) text parsed =
          .error (.malformedSchema (.circular path))) ↔
        ∃ earlier ∈ chain, earlier = parsed ∨ earlier.Confused parsed) ∧
      (parsed.IsPlain → ∀ earlier ∈ chain, earlier.IsPlain → ¬ earlier.Confused parsed) ∧
      (∀ skip name schema path, registry.flattenWithout skip name schema =
          .error (.malformedSchema (.circular path)) →
        ∃ first second, registry.ComesTo schema first second ∧
          (first = second ∨ first.Confused second)) := by
  have same : ∀ earlier ∈ chain, earlier.key = parsed.key ↔
      earlier = parsed ∨ earlier.Confused parsed := fun earlier member =>
    Reference.key_eq_iff (written earlier member) ⟨text, parse⟩
  refine ⟨same, ?_, fun plain earlier member plainToo =>
    Reference.not_confused_of_isPlain plainToo plain, fun skip name schema path failed => ?_⟩
  · rw [arrive_circular_iff, List.mem_map]
    constructor
    · rintro ⟨earlier, member, sameKey⟩
      exact ⟨earlier, member, (same earlier member).mp sameKey⟩
    · rintro ⟨earlier, member, confused⟩
      exact ⟨earlier, member, (same earlier member).mpr confused⟩
  · obtain ⟨first, second, comes, sameKey⟩ :=
      exists_comesTo_of_circular (.self schema) (by simp) failed
    obtain ⟨writtenFirst, writtenSecond⟩ := comes.isWritten
    exact ⟨first, second, comes, (Reference.key_eq_iff writtenFirst writtenSecond).mp sameKey⟩

/-- A document with a key that reads like a pointer to another one, to which it refers. -/
def outline : Keyed Json :=
  [("A", .obj [("B", .obj [("type", .str "integer")])]), ("A/B", .obj [("$ref", .str "#/A/B")])]

/-- A registry that finds the document beside it. -/
def annotated : Registry where
  entries := []
  place := some "spec.json"
  documents := ⟨FileTree.empty, [("outline.json", ⟨.ok outline, false⟩)]⟩

/-- The schema under one key refers to the schema under the other, which refers to nothing. Yet
flattening it fails for a circle. -/
theorem circular_iff_confused_annotated :
    Reference.parse "outline.json#/A~1B" = .ok (.remote "outline.json" ["A/B"]) ∧
      Reference.parse "outline.json#/A/B" = .ok (.remote "outline.json" ["A", "B"]) ∧
      annotated.target "outline.json#/A/B" (.remote "outline.json" ["A", "B"]) =
        .ok ("B", .obj [("type", .str "integer")]) ∧
      (∃ path, annotated.arrive ([.remote "outline.json" ["A/B"]].map Reference.key)
        "outline.json#/A/B" (.remote "outline.json" ["A", "B"]) =
          .error (.malformedSchema (.circular path))) ∧
      annotated.flatten "C" (.obj [("$ref", .str "outline.json#/A~1B")]) = .error (.malformedSchema
        (.circular ["outline.json#/A/B", "outline.json#/A/B"])) ∧
      ∃ first second, annotated.ComesTo (.obj [("$ref", .str "outline.json#/A~1B")]) first second ∧
        (first = second ∨ first.Confused second) := by
  have readFirst : Reference.parse "outline.json#/A~1B" = .ok (.remote "outline.json" ["A/B"]) :=
    rfl
  have readSecond : Reference.parse "outline.json#/A/B" =
      .ok (.remote "outline.json" ["A", "B"]) := rfl
  have limit : annotated.chainLimit = 192 := rfl
  have leadsFirst : annotated.target "outline.json#/A~1B" (.remote "outline.json" ["A/B"]) =
      .ok ("A/B", .obj [("$ref", .str "outline.json#/A/B")]) := rfl
  have failed : annotated.flatten "C" (.obj [("$ref", .str "outline.json#/A~1B")]) =
      .error (.malformedSchema (.circular ["outline.json#/A/B", "outline.json#/A/B"])) := by
    rw [flatten, flattenWithout, flattenFrom_reference rfl, flattenTarget_text, readFirst, ok_bind,
      if_neg (by decide), if_neg (by decide), leadsFirst, ok_bind, limit]
    dsimp only
    rw [flattenFrom_reference rfl, flattenTarget_text, readSecond, ok_bind, if_neg (by decide),
      if_pos (by decide +kernel)]
    rfl
  have written : ∀ earlier ∈ [Reference.remote "outline.json" ["A/B"]], earlier.IsWritten := by
    intro earlier member
    exact List.mem_singleton.mp member ▸ ⟨_, readFirst⟩
  have confused : (Reference.remote "outline.json" ["A/B"]).Confused
      (.remote "outline.json" ["A", "B"]) := ⟨rfl, by decide, by decide +kernel⟩
  obtain ⟨-, circular, -, run⟩ := circular_iff_confused annotated _ written _ _ readSecond
  exact ⟨readFirst, readSecond, rfl, circular.mpr ⟨_, List.mem_singleton_self _, .inr confused⟩,
    failed, run none "C" _ _ failed⟩

end Registry

end EntityMapping
