import Mathlib.Data.Multiset.MapFold
import EntityMapping.Proofs.Gathering
import EntityMapping.Proofs.SameValues

/-!
What a relationship is gathered from: the keywords that are written on the fragments of its property,
wherever they are written. Collecting them gives all of them in their order, unless one is written
twice or the reference is missing; what is gathered then only looks them up.
-/

set_option autoImplicit false
set_option relaxedAutoImplicit false

namespace EntityMapping

open Keyed (Distinct)

/-- Names of arguments are refused as what they are, keywords of an extension. -/
theorem Extension.kind_of_checkArguments {level : Level} {given : Keyed Json} {e : SchemaError}
    (failed : checkArguments level given = .error e) : e.kind = .malformedExtension := by
  induction given with
  | nil => cases failed
  | cons argument rest ih =>
    change (checkArgument level argument.1 >>= fun _ => checkArguments level rest) = .error e at failed
    cases checked : checkArgument level argument.1 with
    | ok =>
      rw [checked] at failed
      exact ih failed
    | error other =>
      rw [checked] at failed
      obtain rfl := Except.error.inj failed
      unfold checkArgument refuse at checked
      split_ifs at checked <;> (obtain rfl := Except.error.inj checked; rfl)

namespace Relationship

/-- The keywords of relationships that are written on a fragment, with their values. -/
def writtenOn (fragment : Keyed Json) : Keyed Json :=
  rules.filterMap fun rule =>
    (presentValue? fragment rule.keyword).map fun value => (rule.keyword, value)

/-- The keywords of relationships that are written on any of some fragments. -/
def written (fragments : List (Keyed Json)) : Keyed Json := fragments.flatMap writtenOn

/-- On which fragments a relationship is written: on the property beside its reference, or on the
fragments that the property lists and on the property itself. -/
inductive WrittenOn : Json → List (Keyed Json) → Prop
  | reference {fields : Keyed Json} : (Keyed.get? fields "$ref").isSome = true →
      Keyed.get? fields "allOf" = none → WrittenOn (.obj fields) [fields]
  | composed {fields : Keyed Json} {fragments : List (Keyed Json)} :
      Keyed.get? fields "$ref" = none →
      Keyed.get? fields "allOf" = some (.arr (fragments.map .obj)) →
      WrittenOn (.obj fields) (fragments ++ [fields])

/-- The same keywords with the same values, wherever they are written; objects are the same whatever
the order of their keys. -/
def SamePairs (pairs others : Keyed Json) : Prop :=
  Multiset.Rel (fun pair other => pair.1 = other.1 ∧ pair.2.sameValue other.2 = true)
    (pairs : Multiset (String × Json)) (others : Multiset (String × Json))

/-- No keyword is written twice, and the reference is written. -/
structure IsComplete (pairs : Keyed Json) : Prop where
  distinct : Distinct pairs
  reference : "$ref" ∈ Keyed.keys pairs

section Collecting

variable {property : String} {schema : Json} {fragments : List (Keyed Json)}
  {collected pairs : Keyed Json}

/-- Collect one keyword with its value. -/
def collectPair (property : String) (collected : Keyed Json) (pair : String × Json) :
    Except SchemaError (Keyed Json) :=
  if Keyed.contains collected pair.1 then refuse (.repeatedKeyword property pair.1)
  else .ok (Keyed.set collected pair.1 pair.2)

theorem foldlM_collectKeyword (property : String) (fragment : Keyed Json)
    (rules : List KeywordRule) (collected : Keyed Json) :
    rules.foldlM (collectKeyword property fragment) collected =
      (rules.filterMap fun rule => (presentValue? fragment rule.keyword).map fun value =>
        (rule.keyword, value)).foldlM (collectPair property) collected := by
  induction rules generalizing collected with
  | nil => rfl
  | cons rule rest ih =>
    cases present : presentValue? fragment rule.keyword with
    | none => simp [collectKeyword, present, ih]
    | some value => simp [collectKeyword, collectPair, present, ih]

/-- The keywords of all fragments are collected one after the other. -/
theorem foldlM_collectFragment (property : String) (fragments : List (Keyed Json))
    (collected : Keyed Json) :
    (fragments.map Json.obj).foldlM (collectFragment property) collected =
      (written fragments).foldlM (collectPair property) collected := by
  induction fragments generalizing collected with
  | nil => rfl
  | cons fragment rest ih =>
    rw [List.map_cons, List.foldlM_cons, written, List.flatMap_cons, List.foldlM_append,
      collectFragment, foldlM_collectKeyword]
    exact bind_congr fun next => ih next

/-- Keywords that are written once are collected in their order. -/
theorem foldlM_collectPair (distinct : Distinct (collected ++ pairs)) :
    pairs.foldlM (collectPair property) collected = .ok (collected ++ pairs) := by
  induction pairs generalizing collected with
  | nil => simp
  | cons pair rest ih =>
    have absent := (Keyed.notMem_keys_of_cut distinct).1
    have fresh : ¬ Keyed.contains collected pair.1 = true := by
      rwa [Keyed.contains_iff]
    rw [List.append_cons collected pair rest] at distinct ⊢
    rw [List.foldlM_cons, collectPair, if_neg fresh, Keyed.set_of_not_mem _ absent, ok_bind]
    exact ih distinct

/-- A keyword that is written again is refused. -/
theorem foldlM_collectPair_of_repeated (before : Distinct collected)
    (repeated : ¬ Distinct (collected ++ pairs)) :
    ∃ keyword, pairs.foldlM (collectPair property) collected =
      refuse (.repeatedKeyword property keyword) := by
  induction pairs generalizing collected with
  | nil => exact absurd before (by simpa using repeated)
  | cons pair rest ih =>
    rw [List.foldlM_cons, collectPair]
    by_cases present : Keyed.contains collected pair.1 = true
    · exact ⟨pair.1, by rw [if_pos present]; rfl⟩
    · have absent : pair.1 ∉ Keyed.keys collected := by rwa [← Keyed.contains_iff]
      rw [if_neg present, Keyed.set_of_not_mem _ absent, ok_bind]
      rw [List.append_cons collected pair rest] at repeated
      exact ih ((Keyed.distinct_append_singleton _ _).mpr ⟨before, absent⟩) repeated

theorem forM_checkRequired (property : String) (collected : Keyed Json) :
    rules.forM (checkRequired property collected) =
      if "$ref" ∈ Keyed.keys collected then .ok ⟨⟩ else refuse (.missingKeyword property "$ref") := by
  by_cases present : "$ref" ∈ Keyed.keys collected
  · have contained := (Keyed.contains_iff _ _).mpr present
    simp [rules, checkRequired, present, contained]
  · have absent : Keyed.contains collected "$ref" = false :=
      Bool.eq_false_iff.mpr fun there => present ((Keyed.contains_iff _ _).mp there)
    simp [rules, checkRequired, present, absent, refuse]

/-- Collecting goes through what is written on the fragments, and asks for the reference. -/
theorem collect_eq (writtenOn : WrittenOn schema fragments) (property : String) :
    collect property schema =
      (written fragments).foldlM (collectPair property) [] >>= fun collected =>
        rules.forM (checkRequired property collected) >>= fun _ => .ok collected := by
  cases writtenOn with
  | @reference fields isReference notComposed =>
    obtain ⟨value, found⟩ := Option.isSome_iff_exists.mp isReference
    rw [← foldlM_collectFragment]
    simp only [collect, Relationship.fragments, found, notComposed, ok_bind]
    rfl
  | @composed fields items noReference isList =>
    rw [← foldlM_collectFragment]
    simp only [collect, Relationship.fragments, noReference, isList, ok_bind, List.map_append]
    rfl

/-- What is written is what is collected. -/
theorem collect_of_isComplete (writtenOn : WrittenOn schema fragments)
    (complete : IsComplete (written fragments)) :
    collect property schema = .ok (written fragments) := by
  rw [collect_eq writtenOn, foldlM_collectPair (by simpa using complete.distinct)]
  simp [forM_checkRequired, complete.reference]

theorem collect_of_not_isComplete (writtenOn : WrittenOn schema fragments)
    (incomplete : ¬ IsComplete (written fragments)) :
    ∃ cause, collect property schema = .error (.malformedRelationship cause) := by
  rw [collect_eq writtenOn]
  by_cases distinct : Distinct (written fragments)
  · have missing : "$ref" ∉ Keyed.keys (written fragments) := fun there =>
      incomplete ⟨distinct, there⟩
    rw [foldlM_collectPair (by simpa using distinct)]
    exact ⟨.missingKeyword property "$ref", by simp [forM_checkRequired, missing, refuse]⟩
  · obtain ⟨keyword, repeated⟩ :=
      foldlM_collectPair_of_repeated Keyed.distinct_nil (by simpa using distinct)
    rw [repeated]
    exact ⟨_, rfl⟩

end Collecting

section SamePairs

variable {pairs others : Keyed Json} {keyword : String}

theorem SamePairs.keys_perm (same : SamePairs pairs others) :
    (Keyed.keys pairs).Perm (Keyed.keys others) := by
  have keys : Multiset.Rel (fun pair other : String × Json => pair.1 = other.1) pairs others :=
    same.mono fun _ _ _ _ both => both.1
  rw [← Multiset.coe_eq_coe, ← Multiset.rel_eq]
  exact Multiset.rel_map.mpr keys

theorem SamePairs.isComplete_iff (same : SamePairs pairs others) :
    IsComplete pairs ↔ IsComplete others :=
  ⟨fun complete => ⟨same.keys_perm.nodup_iff.mp complete.distinct,
      same.keys_perm.mem_iff.mp complete.reference⟩,
    fun complete => ⟨same.keys_perm.nodup_iff.mpr complete.distinct,
      same.keys_perm.mem_iff.mpr complete.reference⟩⟩

/-- Where no keyword is written twice, the same is found under every keyword. -/
theorem SamePairs.get? (same : SamePairs pairs others) (distinct : Distinct pairs)
    (keyword : String) :
    SameIfPresent (Keyed.get? pairs keyword) (Keyed.get? others keyword) := by
  have distinctToo : Distinct others := same.keys_perm.nodup_iff.mp distinct
  cases found : Keyed.get? pairs keyword with
  | none =>
    have absent := (Keyed.get?_eq_none_iff pairs keyword).mp found
    rw [(Keyed.get?_eq_none_iff others keyword).mpr fun there =>
      absent (same.keys_perm.mem_iff.mpr there)]
    exact .none
  | some value =>
    obtain ⟨⟨_, other⟩, member, rfl, sameHere⟩ :=
      Multiset.exists_mem_of_rel_of_mem same (Multiset.mem_coe.mpr (Keyed.mem_of_get? found))
    rw [Keyed.get?_of_mem distinctToo (Multiset.mem_coe.mp member)]
    exact .some sameHere

end SamePairs

/-- Relationships are the same if all but their arguments is equal and those have the same values. -/
structure Same (one other : Relationship) : Prop where
  all : ({ one with arguments := none } : Relationship) = { other with arguments := none }
  arguments : SameIfPresent (one.arguments.map Json.obj) (other.arguments.map Json.obj)

section Forms

variable {α : Type} {form : KeywordForm α} {keyword : String} {value other : Option Json}
  {collected others target : Keyed Json}

/-- A form that reads the same from values that are the same. -/
def ReadsAlike (form : KeywordForm α) : Prop :=
  ∀ keyword (one other : Json), one.sameValue other = true → form keyword one = form keyword other

/-- Texts are the same only if they are equal. -/
theorem readsAlike_string : ReadsAlike .string := by
  intro keyword one other same
  cases one <;> cases other <;> simp_all [Json.sameValue, KeywordForm.string]

/-- Truth values are the same only if they are equal. -/
theorem readsAlike_boolean : ReadsAlike .boolean := by
  intro keyword one other same
  cases one <;> cases other <;> simp_all [Json.sameValue, KeywordForm.boolean]

theorem ReadsAlike.formed (reads : ReadsAlike form) (same : SameIfPresent value other) :
    formed form keyword value = formed form keyword other := by
  cases same with
  | none => rfl
  | @some one other same => simp only [Relationship.formed, Option.mapM_some, reads _ one other same]

/-- What is not written is looked up in the same place. -/
theorem ReadsAlike.formed_lookUp (reads : ReadsAlike form)
    (same : SameIfPresent (Keyed.get? collected keyword) (Keyed.get? others keyword)) :
    Relationship.formed form keyword (lookUp collected target keyword) =
      Relationship.formed form keyword (lookUp others target keyword) := by
  unfold lookUp
  generalize Keyed.get? collected keyword = value at same
  generalize Keyed.get? others keyword = other at same
  cases same with
  | none => rfl
  | some same => exact reads.formed (.some same)

/-- Arguments with the same values, none of which is given twice. -/
def SameArguments (one other : Option (Keyed Json)) : Prop :=
  SameIfPresent (one.map Json.obj) (other.map Json.obj) ∧ ∀ given ∈ one, Distinct given

theorem formed_object_alike (whole : ∀ given ∈ value, given.isWellKeyed = true)
    (same : SameIfPresent value other) :
    Alike SameArguments (formed .object keyword value) (formed .object keyword other) := by
  cases same with
  | none => exact .ok ⟨.none, by simp⟩
  | @some one other same =>
    cases one with
    | obj fields =>
      cases other with
      | obj others =>
        have distinct := ((Json.isWellKeyed_obj fields).mp (whole _ rfl)).1
        exact .ok ⟨.some same, by simpa using distinct⟩
      | _ => simp [Json.sameValue] at same
    | _ =>
      cases other <;> first | exact .error _ | simp [Json.sameValue] at same

/-- The names of arguments are checked alike, though not in the same order. -/
theorem SameArguments.checkArguments {level : Extension.Level} {one other : Option (Keyed Json)}
    (same : SameArguments one other) :
    AlikeInKind (fun _ _ => True) (one.forM (Extension.checkArguments level))
      (other.forM (Extension.checkArguments level)) := by
  obtain ⟨same, distinct⟩ := same
  cases one with
  | none =>
    cases other with
    | none => exact .ok trivial
    | some others => cases same
  | some fields =>
    cases other with
    | none => cases same
    | some others =>
      have sameKeys := Json.mem_keys_of_sameValue (distinct fields rfl)
        (by simpa [SameIfPresent] using same)
      have sameChecks : Extension.checkArguments level fields = .ok () ↔
          Extension.checkArguments level others = .ok () := by
        simp only [Extension.checkArguments_eq_ok, sameKeys]
      change AlikeInKind _ (Extension.checkArguments level fields)
        (Extension.checkArguments level others)
      cases checked : Extension.checkArguments level fields with
      | ok =>
        rw [sameChecks.mp checked]
        exact .ok trivial
      | error e =>
        cases checkedToo : Extension.checkArguments level others with
        | ok => cases checked.symm.trans (sameChecks.mpr checkedToo)
        | error other =>
          exact .error ((Extension.kind_of_checkArguments checked).trans
            (Extension.kind_of_checkArguments checkedToo).symm)

end Forms

end Relationship

namespace Registry

variable {registry : Registry} {property : String} {type : RelationshipType} {one other : Json}

/-- What is gathered depends on what is collected alone. -/
theorem gatherReference_alike
    (collected : AlikeInKind (fun collected others : Keyed Json =>
        (∀ keyword, SameIfPresent (Keyed.get? collected keyword) (Keyed.get? others keyword)) ∧
          ∀ given ∈ Keyed.get? collected "x-kwargs", given.isWellKeyed = true)
      (Relationship.collect property one) (Relationship.collect property other)) :
    AlikeInKind Relationship.Same (registry.gatherReference type property one)
      (registry.gatherReference type property other) := by
  unfold gatherReference
  refine collected.bind fun collected others ⟨same, whole⟩ => ?_
  have string := Relationship.readsAlike_string
  have boolean := Relationship.readsAlike_boolean
  rw [string.formed (same "$ref")]
  refine .bind_of_eq fun reference _ => .bind_of_eq fun target _ => .bind_of_eq fun primitive _ => ?_
  by_cases notObject : primitive ≠ .object
  · rw [if_pos notObject, if_pos notObject]
    exact .error rfl
  rw [if_neg notObject, if_neg notObject]
  dsimp only
  rw [string.formed_lookUp (same "x-backref"), boolean.formed_lookUp (same "x-uselist"),
    string.formed_lookUp (same "x-secondary"), string.formed_lookUp (same "x-foreign-key-column"),
    boolean.formed (same "nullable"), string.formed (same "description"),
    boolean.formed (same "writeOnly")]
  refine .bind_of_eq fun name _ => .bind_of_eq fun uselist _ => .bind_of_eq fun secondary _ =>
    .bind_of_eq fun column _ => .bind_of_eq fun backref _ => ?_
  -- only the arguments are values that can be the same without being equal
  refine (Relationship.formed_object_alike whole (same "x-kwargs")).inKind.bind
    fun arguments argumentsToo sameArguments => ?_
  refine sameArguments.checkArguments.bind fun _ _ _ => ?_
  refine .bind_of_eq fun nullable _ => .bind_of_eq fun description _ =>
    .bind_of_eq fun writeOnly _ => ?_
  exact .ok ⟨rfl, sameArguments.1⟩

theorem gatherObject_alike (gathered : AlikeInKind Relationship.Same
      (registry.gatherReference .object property one)
      (registry.gatherReference .object property other)) :
    AlikeInKind Relationship.Same (registry.gatherObject property one)
      (registry.gatherObject property other) := by
  refine gathered.bind fun relationship another same => ?_
  have sameTable : relationship.secondary = another.secondary := by
    simpa using congrArg Relationship.secondary same.all
  rw [← sameTable]
  cases relationship.secondary with
  | none => exact .ok same
  | some secondary => exact .error rfl

end Registry

namespace Relationship

variable {schema : Json} {fragments others : List (Keyed Json)}

/-- What is written on the fragments of a schema is part of the schema. -/
theorem WrittenOn.isWellKeyed (writtenOn : WrittenOn schema fragments)
    (whole : schema.isWellKeyed = true) :
    ∀ pair ∈ written fragments, pair.2.isWellKeyed = true := by
  have fragmentsWhole : ∀ fragment ∈ fragments, (Json.obj fragment).isWellKeyed = true := by
    cases writtenOn with
    | reference => simpa using whole
    | @composed fields items noReference isList =>
      have listed := (Json.isWellKeyed_arr _).mp (Json.isWellKeyed_of_get? whole isList)
      intro fragment member
      rcases List.mem_append.mp member with inItems | isLast
      · exact listed _ (List.mem_map_of_mem inItems)
      · rwa [List.mem_singleton.mp isLast]
  intro pair member
  obtain ⟨fragment, inFragments, member⟩ := List.mem_flatMap.mp member
  obtain ⟨rule, -, isPair⟩ := List.mem_filterMap.mp member
  obtain ⟨value, present, rfl⟩ := Option.map_eq_some_iff.mp isPair
  have found := (Option.filter_eq_some_iff.mp present).1
  exact Json.isWellKeyed_of_get? (fragmentsWhole fragment inFragments) found

/-- The value of a keyword of a relationship: what is written beside its reference, or else what the
entity says that the reference leads to. -/
inductive Taken {α : Type} (form : KeywordForm α) (keyword : String) (pairs target : Keyed Json) :
    Option α → Prop
  | written {written : Json} {value : α} : (keyword, written) ∈ pairs →
      form keyword written = .ok value → Taken form keyword pairs target (some value)
  | inherited {value : Option α} : keyword ∉ Keyed.keys pairs →
      formed form keyword (presentValue? target keyword) = .ok value →
      Taken form keyword pairs target value

/-- What a relationship takes from the keywords that are written beside its reference, or else from
the entity that the reference leads to. Foreign keys point at the column `id` unless either says
otherwise. -/
structure TakenFrom (relationship : Relationship) (pairs target : Keyed Json) : Prop where
  backref : Taken .string "x-backref" pairs target (relationship.backref.map Backref.name)
  uselist : Taken .boolean "x-uselist" pairs target (relationship.backref.bind Backref.uselist)
  secondary : Taken .string "x-secondary" pairs target relationship.secondary
  column : ∃ column, Taken .string "x-foreign-key-column" pairs target column ∧
    relationship.foreignKeyColumn = column.getD "id"

theorem taken_of_lookUp {α : Type} {form : KeywordForm α} {keyword : String}
    {pairs target : Keyed Json} {value : Option α}
    (inherited : (rules.any fun rule => rule.keyword = keyword && rule.inherited) = true)
    (found : formed form keyword (lookUp pairs target keyword) = .ok value) :
    Taken form keyword pairs target value := by
  unfold lookUp at found
  cases isWritten : Keyed.get? pairs keyword with
  | none =>
    rw [isWritten] at found
    dsimp only at found
    rw [if_pos inherited] at found
    exact .inherited ((Keyed.get?_eq_none_iff _ _).mp isWritten) found
  | some written =>
    rw [isWritten] at found
    obtain ⟨value, read, rfl⟩ := map_eq_ok.mp found
    exact .written (Keyed.mem_of_get? isWritten) read

theorem TakesFrom.takenFrom {relationship : Relationship} {pairs target : Keyed Json}
    (takes : relationship.TakesFrom pairs target) (isObject : relationship.type = .object) :
    relationship.TakenFrom pairs target where
  backref := taken_of_lookUp rfl takes.backref
  uselist := taken_of_lookUp rfl (takes.uselist isObject)
  secondary := taken_of_lookUp rfl takes.secondary
  column := by
    obtain ⟨column, found, isColumn⟩ := takes.column
    exact ⟨column, taken_of_lookUp rfl found, isColumn⟩

end Relationship

namespace Registry

open Relationship (WrittenOn SamePairs IsComplete)

/-- Gathering depends on what is written, not on where. Properties with the same keywords have the
same relationship, or both have none for the same kind of reason; there is none if a keyword is
written twice or the reference is not written. A relationship takes its back reference, its
association table and its column from what is written, or else, each for itself, from the entity
that the reference leads to. -/
theorem gatherObject_written (registry : Registry) (property : String) {schema : Json}
    {fragments : List (Keyed Json)} (writtenOn : WrittenOn schema fragments) :
    (schema.isWellKeyed = true → ∀ other others, WrittenOn other others →
      SamePairs (Relationship.written fragments) (Relationship.written others) →
        AlikeInKind Relationship.Same (registry.gatherObject property schema)
          (registry.gatherObject property other)) ∧
    (¬ Distinct (Relationship.written fragments) ∨
        "$ref" ∉ Keyed.keys (Relationship.written fragments) →
      ∃ cause, registry.gatherObject property schema = .error (.malformedRelationship cause)) ∧
    ∀ relationship, registry.gatherObject property schema = .ok relationship →
      ∃ text flat, ("$ref", .str text) ∈ Relationship.written fragments ∧
        registry.flatten property (.obj [("$ref", .str text)]) = .ok flat ∧
        relationship.TakenFrom (Relationship.written fragments) flat.fields := by
  refine ⟨fun whole other others writtenToo same => ?_, fun malformed => ?_,
    fun relationship found => ?_⟩
  · refine gatherObject_alike (gatherReference_alike ?_)
    by_cases complete : IsComplete (Relationship.written fragments)
    · rw [Relationship.collect_of_isComplete writtenOn complete,
        Relationship.collect_of_isComplete writtenToo (same.isComplete_iff.mp complete)]
      exact .ok ⟨same.get? complete.distinct, fun given found =>
        writtenOn.isWellKeyed whole _ (Keyed.mem_of_get? found)⟩
    · obtain ⟨cause, failed⟩ := Relationship.collect_of_not_isComplete writtenOn complete
      obtain ⟨causeToo, failedToo⟩ := Relationship.collect_of_not_isComplete writtenToo
        fun completeToo => complete (same.isComplete_iff.mpr completeToo)
      rw [failed, failedToo]
      exact .error rfl
  · have incomplete : ¬ IsComplete (Relationship.written fragments) := fun complete =>
      malformed.elim (fun repeated => repeated complete.distinct)
        (fun missing => missing complete.reference)
    obtain ⟨cause, failed⟩ := Relationship.collect_of_not_isComplete writtenOn incomplete
    refine ⟨cause, ?_⟩
    rw [gatherObject, gatherReference, failed]
    rfl
  · obtain ⟨gathered, isGathered, found⟩ := bind_eq_ok.mp found
    obtain ⟨isObject, -, collected, text, flat, gathers⟩ := gatherReference_eq_ok isGathered
    have complete : IsComplete (Relationship.written fragments) := by
      by_contra incomplete
      obtain ⟨cause, failed⟩ := Relationship.collect_of_not_isComplete writtenOn incomplete
      cases failed.symm.trans gathers.written
    obtain rfl := Except.ok.inj
      ((Relationship.collect_of_isComplete writtenOn complete).symm.trans gathers.written)
    have same : gathered = relationship := by
      split at found
      · cases found
      · exact Except.ok.inj found
    subst same
    exact ⟨text, flat, Keyed.mem_of_get? gathers.reference, gathers.flattened,
      gathers.takesFrom.takenFrom isObject⟩

/-- Keepers are found by their badge, and have at most one animal. -/
def menagerie : Registry where
  entries := [
    ("Keeper", .obj [("type", .str "object"), ("x-tablename", .str "keeper"),
      ("x-backref", .str "animals"), ("x-uselist", .bool false),
      ("x-foreign-key-column", .str "badge")])]
  place := none
  documents := Documents.empty

/-- The keeper of an animal, with everything beside the reference. -/
def besideReference : Keyed Json :=
  [("$ref", .str "#/Keeper"), ("x-backref", .str "charge"),
    ("x-kwargs", .obj [("lazy", .str "select"), ("order_by", .str "name")])]

/-- The keeper of an animal, in fragments; the arguments are beside the list of them. -/
def inFragments : Keyed Json :=
  [("allOf", .arr [.obj [("x-backref", .str "charge")], .obj [("$ref", .str "#/Keeper")]]),
    ("x-kwargs", .obj [("order_by", .str "name"), ("lazy", .str "select")])]

/-- Either way the relationship has the back reference that is written, is not a list on the other
side, and points at badges, as keepers say. -/
theorem gatherObject_written_menagerie :
    ∃ text flat one other, menagerie.gatherObject "keeper" (.obj besideReference) = .ok one ∧
      menagerie.gatherObject "keeper" (.obj inFragments) = .ok other ∧ one.Same other ∧
      one.backref = some ⟨"charge", some false⟩ ∧ one.foreignKeyColumn = "badge" ∧
      menagerie.flatten "keeper" (.obj [("$ref", .str text)]) = .ok flat ∧
      one.TakenFrom (Relationship.written [besideReference]) flat.fields := by
  have beside : WrittenOn (.obj besideReference) [besideReference] := .reference rfl rfl
  have inside : WrittenOn (.obj inFragments)
      [[("x-backref", .str "charge")], [("$ref", .str "#/Keeper")], inFragments] :=
    @WrittenOn.composed inFragments [[("x-backref", .str "charge")], [("$ref", .str "#/Keeper")]]
      rfl rfl
  have same : SamePairs (Relationship.written [besideReference]) (Relationship.written
      [[("x-backref", .str "charge")], [("$ref", .str "#/Keeper")], inFragments]) := by
    have pairs : Relationship.written [besideReference] =
        [("$ref", .str "#/Keeper"), ("x-backref", .str "charge"),
          ("x-kwargs", .obj [("lazy", .str "select"), ("order_by", .str "name")])] := by cbv
    have others : Relationship.written
        [[("x-backref", .str "charge")], [("$ref", .str "#/Keeper")], inFragments] =
        [("x-backref", .str "charge"), ("$ref", .str "#/Keeper"),
          ("x-kwargs", .obj [("order_by", .str "name"), ("lazy", .str "select")])] := by cbv
    rw [SamePairs, pairs, others, Multiset.coe_eq_coe.mpr (List.Perm.swap _ _ _)]
    exact .cons ⟨rfl, rfl⟩ (.cons ⟨rfl, rfl⟩ (.cons ⟨rfl, by decide +kernel⟩ .zero))
  obtain ⟨alike, -, taken⟩ := gatherObject_written menagerie "keeper" beside
  have facts : (menagerie.gatherObject "keeper" (.obj besideReference)).map (fun relationship =>
      (relationship.backref, relationship.foreignKeyColumn)) =
        .ok (some ⟨"charge", some false⟩, "badge") := by cbv
  obtain ⟨one, gathered, isOne⟩ := map_eq_ok.mp facts
  have both := alike (by decide +kernel) _ _ inside same
  rw [gathered] at both
  obtain ⟨other, gatheredToo, sameBoth⟩ := both.of_ok_left
  obtain ⟨text, flat, -, flattened, takenFrom⟩ := taken one gathered
  exact ⟨text, flat, one, other, gathered, gatheredToo, sameBoth, congrArg Prod.fst isOne,
    congrArg Prod.snd isOne, flattened, takenFrom⟩

end Registry

end EntityMapping
