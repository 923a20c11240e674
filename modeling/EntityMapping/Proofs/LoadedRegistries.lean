import EntityMapping.Proofs.WellKeyed

/-!
Registries that are loaded from documents. A reader sets the keys of an object one by one, so every
value that is read has pairwise different keys, whether it is written as JSON or as YAML; and so has
everything in a registry that is loaded from files.
-/

set_option autoImplicit false
set_option relaxedAutoImplicit false

namespace EntityMapping

/-- What every step of a fold keeps is kept by the fold, if it gives a result. -/
theorem foldlM_eq_some_induction {α β : Type} {f : β → α → Option β} {kept : β → Prop}
    {items : List α} {first last : β}
    (step : ∀ state next, ∀ item ∈ items, kept state → f state item = some next → kept next)
    (initial : kept first) (folded : items.foldlM f first = some last) : kept last := by
  induction items generalizing first with
  | nil => exact Option.some.inj folded ▸ initial
  | cons item rest ih =>
    rw [List.foldlM_cons] at folded
    obtain ⟨next, one, others⟩ := Option.bind_eq_some_iff.mp folded
    have keptNext := step first next item List.mem_cons_self initial one
    exact ih (fun state next other member => step state next other (List.mem_cons_of_mem _ member))
      keptNext others

namespace Json

variable {negative : Bool} {significand dropped : Nat} {exponent : Int} {text : List Char}
  {value : Json}

theorem isWellKeyed_of_scaled (found : scaled negative significand exponent = some value) :
    value.isWellKeyed = true := by
  obtain ⟨first, -, found⟩ := Option.bind_eq_some_iff.mp found
  obtain ⟨number, -, found⟩ := Option.bind_eq_some_iff.mp found
  obtain rfl := Option.some.inj found
  rfl

theorem isWellKeyed_of_withExponent
    (found : withExponent negative significand exponent text = some value) :
    value.isWellKeyed = true := by
  unfold withExponent at found
  dsimp only at found
  split_ifs at found
  · obtain rfl := Option.some.inj found
    rfl
  all_goals exact isWellKeyed_of_scaled found

theorem isWellKeyed_of_afterInteger
    (found : afterInteger negative significand dropped text = some value) :
    value.isWellKeyed = true := by
  unfold afterInteger at found
  dsimp only at found
  split at found
  case' h_1 => split_ifs at found
  -- what may follow is the same after a fraction and without one
  all_goals
    split at found
    · exact isWellKeyed_of_scaled found
    · split_ifs at found
      exact isWellKeyed_of_withExponent found

theorem isWellKeyed_of_integer (found : integer negative significand = some value) :
    value.isWellKeyed = true := by
  unfold integer at found
  split_ifs at found
  · obtain rfl := Option.some.inj found
    rfl
  · obtain ⟨number, -, rfl⟩ := Option.map_eq_some_iff.mp found
    rfl
  · obtain rfl := Option.some.inj found
    rfl

/-- A word or a number has no keys. -/
theorem isWellKeyed_of_bareValue? (found : bareValue? text = some value) :
    value.isWellKeyed = true := by
  unfold bareValue? at found
  split_ifs at found
  · exact Option.some.inj found ▸ rfl
  · exact Option.some.inj found ▸ rfl
  · exact Option.some.inj found ▸ rfl
  · unfold number? at found
    dsimp only at found
    split_ifs at found
    · exact isWellKeyed_of_integer found
    · exact isWellKeyed_of_afterInteger found

/-- The scalars among some tokens have no keys. -/
def ScalarsKeyed (tokens : List Token) : Prop :=
  ∀ value, .scalar value ∈ tokens → value.isWellKeyed = true

theorem ScalarsKeyed.cons {tokens : List Token} {token : Token} (keyed : ScalarsKeyed tokens)
    (head : ∀ value, token = .scalar value → value.isWellKeyed = true) :
    ScalarsKeyed (token :: tokens) := by
  intro value member
  rcases List.mem_cons.mp member with same | later
  · exact head value same.symm
  · exact keyed value later

theorem ScalarsKeyed.start {tokens : List Token} {c : Char} {next : LexState}
    (keyed : ScalarsKeyed tokens) (started : LexState.start tokens c = some next) :
    ScalarsKeyed next.tokens := by
  unfold LexState.start at started
  dsimp only at started
  have punctuated : ∀ token : Token, (∀ value, token ≠ .scalar value) →
      some (LexState.mk (token :: tokens) .between) = some next → ScalarsKeyed next.tokens := by
    rintro token noScalar punctuation
    obtain rfl := Option.some.inj punctuation
    exact keyed.cons fun value same => absurd same (noScalar value)
  split_ifs at started
  · exact Option.some.inj started ▸ keyed
  · exact punctuated _ (by simp) started
  · exact punctuated _ (by simp) started
  · exact punctuated _ (by simp) started
  · exact punctuated _ (by simp) started
  · exact punctuated _ (by simp) started
  · exact punctuated _ (by simp) started
  · exact Option.some.inj started ▸ keyed
  · exact Option.some.inj started ▸ keyed

theorem ScalarsKeyed.step {state next : LexState} {c : Char} (keyed : ScalarsKeyed state.tokens)
    (stepped : state.step c = some next) : ScalarsKeyed next.tokens := by
  unfold LexState.step at stepped
  split at stepped
  · exact keyed.start stepped
  · split_ifs at stepped
    · exact Option.some.inj stepped ▸ keyed
    · obtain ⟨value, read, started⟩ := Option.bind_eq_some_iff.mp stepped
      have whole := isWellKeyed_of_bareValue? read
      exact (keyed.cons fun other same => Token.scalar.inj same ▸ whole).start started
  · split_ifs at stepped
    · exact Option.some.inj stepped ▸ keyed.cons fun value same => by cases same
    · exact Option.some.inj stepped ▸ keyed
    · exact Option.some.inj stepped ▸ keyed
  · split_ifs at stepped
    · exact Option.some.inj stepped ▸ keyed
    · obtain ⟨char, -, rfl⟩ := Option.map_eq_some_iff.mp stepped
      exact keyed
  · obtain ⟨digit, -, stepped⟩ := Option.bind_eq_some_iff.mp stepped
    dsimp only at stepped
    split_ifs at stepped
    · exact Option.some.inj stepped ▸ keyed
    · obtain ⟨lexing, -, rfl⟩ := Option.map_eq_some_iff.mp stepped
      exact keyed
  · split_ifs at stepped
    exact Option.some.inj stepped ▸ keyed
  · split_ifs at stepped
    exact Option.some.inj stepped ▸ keyed

theorem ScalarsKeyed.run {state last : LexState} (keyed : ScalarsKeyed state.tokens)
    (ran : state.run text = some last) : ScalarsKeyed last.tokens := by
  induction text generalizing state with
  | nil => exact Option.some.inj ran ▸ keyed
  | cons c rest ih =>
    obtain ⟨next, stepped, others⟩ := Option.bind_eq_some_iff.mp ran
    exact ih (keyed.step stepped) others

theorem ScalarsKeyed.of_tokens? {tokens : List Token} (read : tokens? text = some tokens) :
    ScalarsKeyed tokens := by
  obtain ⟨state, ran, read⟩ := Option.bind_eq_some_iff.mp read
  have keyed : ScalarsKeyed state.tokens := ScalarsKeyed.run (by simp [ScalarsKeyed]) ran
  have reversed : ∀ {tokens : List Token}, ScalarsKeyed tokens → ScalarsKeyed tokens.reverse :=
    fun keyed value member => keyed value (List.mem_reverse.mp member)
  split at read
  · exact Option.some.inj read ▸ reversed keyed
  · obtain ⟨value, bare, read⟩ := Option.bind_eq_some_iff.mp read
    have whole := isWellKeyed_of_bareValue? bare
    exact Option.some.inj read ▸
      reversed (keyed.cons fun other same => Token.scalar.inj same ▸ whole)
  · cases read

/-- What is read so far of a list or an object has pairwise different keys. -/
def Frame.IsWellKeyed : Frame → Prop
  | .list read => ∀ item ∈ read, item.isWellKeyed = true
  | .object fields => (Json.obj fields).isWellKeyed = true
  | .field fields _ => (Json.obj fields).isWellKeyed = true

/-- Everything that is read so far has pairwise different keys. -/
structure ReadState.WellKeyed (state : ReadState) : Prop where
  frames : ∀ frame ∈ state.frames, frame.IsWellKeyed
  root : ∀ value, state.root = some value → value.isWellKeyed = true

namespace ReadState

variable {frames : List Frame} {frame : Frame} {state next : ReadState} {token : Token}

theorem wellKeyed_deliver (open? : ∀ frame ∈ frames, frame.IsWellKeyed)
    (whole : value.isWellKeyed = true) (delivered : deliver frames value = some next) :
    next.WellKeyed := by
  cases frames with
  | nil =>
    obtain rfl := Option.some.inj delivered
    exact ⟨by simp, fun other same => Option.some.inj same ▸ whole⟩
  | cons frame outer =>
    obtain ⟨inner, others⟩ := List.forall_mem_cons.mp open?
    cases frame with
    | list read =>
      obtain rfl := Option.some.inj delivered
      exact ⟨List.forall_mem_cons.mpr ⟨List.forall_mem_cons.mpr ⟨whole, inner⟩, others⟩, by simp⟩
    | object fields => cases delivered
    | field fields key =>
      obtain rfl := Option.some.inj delivered
      exact ⟨List.forall_mem_cons.mpr ⟨isWellKeyed_set inner key whole, others⟩, by simp⟩

theorem wellKeyed_enter {expected : Expected} (open? : ∀ frame ∈ frames, frame.IsWellKeyed)
    (inner : frame.IsWellKeyed) (entered : enter frames frame expected = some next) :
    next.WellKeyed := by
  unfold enter at entered
  split_ifs at entered
  obtain rfl := Option.some.inj entered
  exact ⟨List.forall_mem_cons.mpr ⟨inner, open?⟩, by simp⟩

theorem wellKeyed_value (open? : ∀ frame ∈ frames, frame.IsWellKeyed)
    (scalar : ∀ value, token = .scalar value → value.isWellKeyed = true)
    (read : ReadState.value frames token = some next) : next.WellKeyed := by
  cases token with
  | openList => exact wellKeyed_enter open? (by simp [Frame.IsWellKeyed]) read
  | openObject =>
    have nothing : (Frame.object []).IsWellKeyed := rfl
    exact wellKeyed_enter open? nothing read
  | text value => exact wellKeyed_deliver open? rfl read
  | scalar value => exact wellKeyed_deliver open? (scalar value rfl) read
  | _ => cases read

theorem wellKeyed_close (open? : ∀ frame ∈ frames, frame.IsWellKeyed)
    (closed : close frames token = some next) : next.WellKeyed := by
  unfold close at closed
  split at closed
  · obtain ⟨inner, others⟩ := List.forall_mem_cons.mp open?
    refine wellKeyed_deliver others ((isWellKeyed_arr _).mpr fun item member => ?_) closed
    exact inner item (List.mem_reverse.mp member)
  · obtain ⟨inner, others⟩ := List.forall_mem_cons.mp open?
    exact wellKeyed_deliver others inner closed
  · cases closed

theorem WellKeyed.step (keyed : state.WellKeyed)
    (scalar : ∀ value, token = .scalar value → value.isWellKeyed = true)
    (stepped : state.step token = some next) : next.WellKeyed := by
  unfold ReadState.step at stepped
  split at stepped
  · exact wellKeyed_value keyed.frames scalar stepped
  · exact wellKeyed_close keyed.frames stepped
  · exact wellKeyed_value keyed.frames scalar stepped
  · exact wellKeyed_close keyed.frames stepped
  · exact Option.some.inj stepped ▸ ⟨keyed.frames, by simp⟩
  · exact Option.some.inj stepped ▸ ⟨keyed.frames, by simp⟩
  · split at stepped
    · rename_i written
      have frames := keyed.frames
      rw [written] at frames
      obtain ⟨inner, others⟩ := List.forall_mem_cons.mp frames
      exact Option.some.inj stepped ▸ ⟨List.forall_mem_cons.mpr ⟨inner, others⟩, by simp⟩
    · cases stepped
  · split at stepped <;> exact Option.some.inj stepped ▸ ⟨keyed.frames, by simp⟩
  · exact wellKeyed_close keyed.frames stepped
  · cases stepped

theorem WellKeyed.run {tokens : List Token} (keyed : state.WellKeyed)
    (scalars : ScalarsKeyed tokens) (ran : state.run tokens = some next) : next.WellKeyed := by
  induction tokens generalizing state with
  | nil => exact Option.some.inj ran ▸ keyed
  | cons token rest ih =>
    obtain ⟨middle, stepped, others⟩ := Option.bind_eq_some_iff.mp ran
    have head : ∀ value, token = .scalar value → value.isWellKeyed = true :=
      fun value same => scalars value (same ▸ List.mem_cons_self)
    exact ih (keyed.step head stepped)
      (fun value member => scalars value (List.mem_cons_of_mem _ member)) others

end ReadState

/-- A value that is read from JSON text has pairwise different keys. -/
theorem isWellKeyed_of_read? {text : String} (read : read? text = some value) :
    value.isWellKeyed = true := by
  obtain ⟨tokens, lexed, read⟩ := Option.bind_eq_some_iff.mp read
  obtain ⟨state, ran, rooted⟩ := Option.bind_eq_some_iff.mp read
  have start : ReadState.WellKeyed ⟨[], .value, none⟩ := ⟨by simp, by simp⟩
  exact (start.run (.of_tokens? lexed) ran).root value rooted

end Json

namespace Yaml

theorem isWellKeyed_of_integerValue? {text : String} {value : Json}
    (found : integerValue? text = some (some value)) : value.isWellKeyed = true := by
  unfold integerValue? at found
  split at found
  · cases found
  · split_ifs at found
    · obtain rfl := Option.some.inj (Option.some.inj found)
      rfl
    · cases Option.some.inj found

theorem isWellKeyed_of_float? {text : String} {value : Json} (found : float? text = some value) :
    value.isWellKeyed = true := by
  unfold float? at found
  split_ifs at found
  · exact Option.some.inj found ▸ rfl
  · obtain ⟨number, -, rfl⟩ := Option.map_eq_some_iff.mp found
    rfl

theorem isWellKeyed_of_plainValue? {text : String} {value : Json}
    (found : plainValue? text = some value) : value.isWellKeyed = true := by
  unfold plainValue? at found
  split at found
  · exact Option.some.inj found ▸ rfl
  split at found
  · exact Option.some.inj found ▸ rfl
  split at found
  · rename_i read
    rw [found] at read
    exact isWellKeyed_of_integerValue? read
  split at found
  · exact Option.some.inj found ▸ rfl
  cases number : float? text with
  | none =>
    rw [number] at found
    exact Option.some.inj found ▸ rfl
  | some float =>
    rw [number] at found
    exact Option.some.inj found ▸ isWellKeyed_of_float? number

/-- A scalar has no keys. -/
theorem isWellKeyed_of_scalarValue? {text : String} {plain : Bool} {tag : Option Tag}
    {value : Json} (found : scalarValue? text plain tag = some value) :
    value.isWellKeyed = true := by
  unfold scalarValue? at found
  split at found
  · split_ifs at found
    · exact isWellKeyed_of_plainValue? found
    · exact Option.some.inj found ▸ rfl
  · split_ifs at found
    · obtain ⟨flag, -, rfl⟩ := Option.map_eq_some_iff.mp found
      rfl
    · exact isWellKeyed_of_integerValue? (Option.join_eq_some_iff.mp found)
    · exact isWellKeyed_of_float? found
    · exact Option.some.inj found ▸ rfl
    · exact isWellKeyed_of_plainValue? found
    · exact Option.some.inj found ▸ rfl

/-- The value of a node has pairwise different keys. -/
theorem isWellKeyed_of_value? {document : Document} {depth jumps left : Nat} {node : Node}
    {value : Json} (found : document.value? depth jumps node = some (value, left)) :
    value.isWellKeyed = true := by
  have scalar : ∀ {text plain tag} {left next : Nat} {value : Json},
      ((scalarValue? text plain tag).bind fun value => some (value, left)) = some (value, next) →
      value.isWellKeyed = true := by
    intro text plain tag left next value found
    obtain ⟨read, isScalar, same⟩ := Option.bind_eq_some_iff.mp found
    obtain ⟨rfl, -⟩ := Prod.mk.inj (Option.some.inj same)
    exact isWellKeyed_of_scalarValue? isScalar
  induction depth generalizing jumps left node value with
  | zero =>
    rw [Document.value?] at found
    obtain ⟨⟨target, rest⟩, -, found⟩ := Option.bind_eq_some_iff.mp found
    cases target with
    | scalar text plain tag => exact scalar found
    | _ => cases found
  | succ depth ih =>
    rw [Document.value?] at found
    obtain ⟨⟨target, rest⟩, -, found⟩ := Option.bind_eq_some_iff.mp found
    cases target with
    | scalar text plain tag => exact scalar found
    | list items tag =>
      dsimp only at found
      split_ifs at found
      obtain ⟨⟨values, last⟩, folded, same⟩ := Option.bind_eq_some_iff.mp found
      obtain ⟨rfl, -⟩ := Prod.mk.inj (Option.some.inj same)
      let kept (state : List Json × Nat) : Prop := ∀ item ∈ state.1, item.isWellKeyed = true
      have read : kept (values, last) := by
        refine foldlM_eq_some_induction ?_ (by simp [kept]) folded
        rintro ⟨before, jumps⟩ next item - keptBefore stepped
        obtain ⟨⟨value, left⟩, found, same⟩ := Option.bind_eq_some_iff.mp stepped
        obtain rfl := Option.some.inj same
        exact List.forall_mem_cons.mpr ⟨ih found, keptBefore⟩
      exact (Json.isWellKeyed_arr _).mpr fun item member => read item (List.mem_reverse.mp member)
    | mapping pairs tag =>
      dsimp only at found
      split_ifs at found
      obtain ⟨⟨fields, last⟩, folded, same⟩ := Option.bind_eq_some_iff.mp found
      obtain ⟨rfl, -⟩ := Prod.mk.inj (Option.some.inj same)
      let kept (state : Keyed Json × Nat) : Prop := (Json.obj state.1).isWellKeyed = true
      have read : kept (fields, last) := by
        refine foldlM_eq_some_induction ?_ rfl folded
        rintro ⟨before, jumps⟩ next ⟨keyNode, valueNode⟩ - keptBefore stepped
        obtain ⟨⟨key, afterKey⟩, -, stepped⟩ := Option.bind_eq_some_iff.mp stepped
        obtain ⟨⟨value, left⟩, found, same⟩ := Option.bind_eq_some_iff.mp stepped
        obtain rfl := Option.some.inj same
        exact Json.isWellKeyed_set keptBefore key (ih found)
      exact read
    | _ => cases found

/-- A value that is read from YAML text has pairwise different keys. -/
theorem isWellKeyed_of_read? {text : String} {value : Json} (read : read? text = some value) :
    value.isWellKeyed = true := by
  obtain ⟨tokens, -, read⟩ := Option.bind_eq_some_iff.mp read
  obtain ⟨document, -, read⟩ := Option.bind_eq_some_iff.mp read
  obtain ⟨⟨found, left⟩, valued, same⟩ := Option.bind_eq_some_iff.mp read
  obtain rfl := Option.some.inj same
  exact isWellKeyed_of_value? valued

end Yaml

/-- A document has pairwise different keys. -/
theorem FileTree.isWellKeyed_of_document {tree : FileTree} {path : String} {fields : Keyed Json}
    (found : tree.document path = .ok fields) : (Json.obj fields).isWellKeyed = true := by
  have whole : ∀ {text : String} {value : Json}, valueOf path text = .ok value →
      value.isWellKeyed = true := by
    intro text value read
    unfold valueOf at read
    dsimp only at read
    split_ifs at read
    · split at read
      · rename_i isRead
        exact Except.ok.inj read ▸ Json.isWellKeyed_of_read? isRead
      · cases read
    · split at read
      · rename_i isRead
        exact Except.ok.inj read ▸ Yaml.isWellKeyed_of_read? isRead
      · cases read
  unfold document at found
  split at found
  · cases found
  · rename_i text _
    cases read : valueOf path text with
    | error cause => simp [read, bind, Except.bind] at found
    | ok value =>
      rw [read] at found
      cases value with
      | obj fields =>
        obtain rfl := Except.ok.inj found
        exact whole read
      | _ => cases found

namespace Documents

variable {documents : Documents}

/-- The documents that references find have pairwise different keys. -/
def WellKeyed (documents : Documents) : Prop :=
  ∀ path fields, documents.find path = .ok fields → (Json.obj fields).isWellKeyed = true

theorem wellKeyed_empty : empty.WellKeyed := by
  intro path fields found
  cases found

/-- Putting a file under a path leaves what references find well keyed, whatever the file holds. -/
theorem WellKeyed.write (keyed : documents.WellKeyed) (path : String) (content : FileContent) :
    (documents.write path content).WellKeyed := by
  intro other fields found
  cases kept : (Keyed.get? documents.findings (Path.normalized path)).any (·.kept) with
  | true =>
    have unchanged : (documents.write path content).find other = documents.find other := by
      simp [find, Documents.write, kept]
    exact keyed other fields (unchanged ▸ found)
  | false =>
    simp only [find, Documents.write, kept] at found
    by_cases same : other = Path.normalized path
    · rw [if_neg Bool.false_ne_true, Keyed.get?_set, if_pos same] at found
      exact FileTree.isWellKeyed_of_document found
    · rw [if_neg Bool.false_ne_true, Keyed.get?_set, if_neg same] at found
      exact keyed other fields found

/-- Changing findings without their names and outcomes leaves what is found as it is. -/
theorem outcome_get?_map {findings : Keyed Finding} {f : String × Finding → String × Finding}
    (named : ∀ pair, (f pair).1 = pair.1) (outcome : ∀ pair, (f pair).2.outcome = pair.2.outcome)
    (path : String) : (Keyed.get? (findings.map f) path).map (·.outcome) =
      (Keyed.get? findings path).map (·.outcome) := by
  induction findings with
  | nil => rfl
  | cons pair rest ih =>
    have changed : f pair = (pair.1, (f pair).2) := Prod.ext (named pair) rfl
    rw [List.map_cons, changed, Keyed.get?_cons, Keyed.get?_cons]
    by_cases same : pair.1 = path
    · simp [same, outcome]
    · simpa [same] using ih

theorem find_eq (path : String) : documents.find path =
    ((Keyed.get? documents.findings path).map (·.outcome)).getD (.error (.unreadable path)) := by
  unfold find
  cases Keyed.get? documents.findings path <;> rfl

/-- Keeping the documents that are read changes nothing that references find. -/
theorem find_keepReads {α : Type} (query : Documents → Except SchemaError α) (path : String) :
    (keepReads query documents).find path = documents.find path := by
  rw [find_eq, find_eq, keepReads, outcome_get?_map]
  · rintro ⟨name, outcome, kept⟩
    dsimp only
    split_ifs
    · rfl
    · split <;> rfl
  · rintro ⟨name, outcome, kept⟩
    dsimp only
    split_ifs
    · rfl
    · cases outcome <;> rfl

theorem WellKeyed.keepReads {α : Type} (keyed : documents.WellKeyed)
    (query : Documents → Except SchemaError α) : (keepReads query documents).WellKeyed :=
  fun path fields found => keyed path fields (find_keepReads query path ▸ found)

end Documents

namespace Registry

variable {documents : Documents} {registry : Registry}

/-- A registry that is read from well keyed schemas is well keyed. -/
theorem wellKeyed_of_ofDocument (keyed : documents.WellKeyed) {document : Json}
    (whole : document.isWellKeyed = true) (read : ofDocument documents document = .ok registry) :
    registry.WellKeyed := by
  unfold ofDocument at read
  split at read
  · rename_i schemas found
    obtain ⟨components, inDocument, inComponents⟩ := Option.bind_eq_some_iff.mp found
    have declared : schemas.isWellKeyed = true :=
      Json.isWellKeyed_of_member (Json.isWellKeyed_of_member whole inDocument) inComponents
    cases schemas with
    | obj entries =>
      obtain rfl := Except.ok.inj read
      obtain ⟨distinct, each⟩ := (Json.isWellKeyed_obj entries).mp declared
      exact ⟨distinct, each, keyed⟩
    | _ => cases read
  · cases read

/-- Every registry that is loaded from files is well keyed. -/
theorem wellKeyed_of_load (keyed : documents.WellKeyed) {path : String}
    (loaded : load documents path = .ok registry) : registry.WellKeyed := by
  obtain ⟨document, read, loaded⟩ := bind_eq_ok.mp loaded
  obtain ⟨declared, entered, placed⟩ := bind_eq_ok.mp loaded
  obtain rfl := Except.ok.inj placed
  have whole : (Json.obj document).isWellKeyed = true := by
    cases outcome : documents.tree.document path with
    | error cause => simp [outcome, Except.mapError] at read
    | ok fields =>
      rw [outcome] at read
      obtain rfl := Except.ok.inj read
      exact FileTree.isWellKeyed_of_document outcome
  have before := wellKeyed_of_ofDocument keyed whole entered
  exact ⟨before.entries, before.schemas, before.documents⟩

end Registry

end EntityMapping
