import EntityMapping.Proofs.LocalReferences
import Mathlib.Data.List.Perm.Subperm

/-!
Chains of references. A chain has no target twice. If the targets that a schema can lead to have
finitely many keys, a chain that may be prolonged by as many references as there are keys left is
never cut short. Flattening, effective keywords and parents then depend on nothing but what the
references lead to: not on how many references may be followed, nor on the place of the registry
where no reference is taken from there.
-/

set_option autoImplicit false
set_option relaxedAutoImplicit false

namespace EntityMapping

/-- An error about a chain of references: it comes back to an entity, or has no end. -/
def SchemaError.isAboutChain : SchemaError → Bool
  | .malformedSchema (.circular _) => true
  | .notFound (.endless _) => true
  | _ => false

theorem SchemaError.ne_endless {e : SchemaError} (notAbout : e.isAboutChain = false)
    (text : String) : e ≠ .notFound (.endless text) := by
  rintro rfl
  cases notAbout

theorem Reference.isAboutChain_of_parse {text : String} {e : SchemaError}
    (unread : Reference.parse text = .error e) : e.isAboutChain = false := by
  have segmented : ∀ {reference pointer}, ∀ {e : SchemaError},
      pointerSegments reference pointer = .error e → e.isAboutChain = false := by
    intro reference pointer e failed
    unfold pointerSegments at failed
    split at failed
    · dsimp only at failed
      split at failed <;> cases failed
      rfl
    · cases failed
      rfl
  unfold Reference.parse at unread
  split at unread
  · rename_i pointer _
    cases segments : pointerSegments text pointer with
    | error other =>
      rw [segments, error_bind, Except.error.injEq] at unread
      exact segmented (unread ▸ segments)
    | ok found =>
      rw [segments, ok_bind] at unread
      unfold ofLocalSegments at unread
      split at unread
      · cases unread
      · split at unread <;> cases unread
        rfl
      · cases unread
        rfl
  · split at unread
    · cases unread
      rfl
    · rename_i document pointer _
      split at unread
      · cases unread
        rfl
      · dsimp only at unread
        split at unread
        · cases unread
          rfl
        · cases segments : pointerSegments text pointer with
          | error other =>
            rw [segments, error_bind, Except.error.injEq] at unread
            exact segmented (unread ▸ segments)
          | ok found => simp [segments] at unread

theorem Reference.isAboutChain_of_read {target : Json} {e : SchemaError}
    (unread : Reference.read target = .error e) : e.isAboutChain = false := by
  unfold Reference.read at unread
  cases target with
  | str text => exact isAboutChain_of_parse unread
  | _ =>
    cases unread
    rfl

variable {α β γ : Type}

/-- Two computations that come to the same, and do not fail for a chain of references without an
end. -/
structure EndsAlike (x y : Except SchemaError α) : Prop where
  same : x = y
  ends : ∀ text, x ≠ .error (.notFound (.endless text))

namespace EndsAlike

variable {x y : Except SchemaError α}

theorem ok (value : α) : EndsAlike (.ok value) (.ok value) := ⟨rfl, by simp⟩

theorem error {e : SchemaError} (notAbout : e.isAboutChain = false) :
    EndsAlike (.error e : Except SchemaError α) (.error e) :=
  ⟨rfl, fun text same => SchemaError.ne_endless notAbout text (Except.error.inj same)⟩

theorem bind {f g : α → Except SchemaError β} (first : EndsAlike x y)
    (next : ∀ value, x = .ok value → EndsAlike (f value) (g value)) :
    EndsAlike (x >>= f) (y >>= g) := by
  obtain ⟨rfl, ends⟩ := first
  cases x with
  | error e => exact ⟨rfl, fun text same => ends text (congrArg _ (Except.error.inj same))⟩
  | ok value => exact next value rfl

theorem map (f : α → β) (first : EndsAlike x y) : EndsAlike (x.map f) (y.map f) := by
  obtain ⟨rfl, ends⟩ := first
  cases x with
  | error e => exact ⟨rfl, fun text same => ends text (congrArg _ (Except.error.inj same))⟩
  | ok value => exact .ok _

theorem mapM {f g : γ → Except SchemaError α} {items : List γ}
    (each : ∀ item ∈ items, EndsAlike (f item) (g item)) :
    EndsAlike (items.mapM f) (items.mapM g) := by
  induction items with
  | nil => exact .ok []
  | cons item rest ih =>
    simp only [List.mapM_cons]
    refine bind (each item List.mem_cons_self) fun _ _ => ?_
    exact bind (ih fun other later => each other (List.mem_cons_of_mem _ later)) fun _ _ => .ok _

theorem findSomeM? {f g : γ → Except SchemaError (Option α)} {items : List γ}
    (each : ∀ item ∈ items, EndsAlike (f item) (g item)) :
    EndsAlike (items.findSomeM? f) (items.findSomeM? g) := by
  induction items with
  | nil => exact .ok none
  | cons item rest ih =>
    simp only [List.findSomeM?_cons]
    refine bind (each item List.mem_cons_self) fun found _ => ?_
    cases found with
    | none => exact ih fun other later => each other (List.mem_cons_of_mem _ later)
    | some value => exact .ok _

theorem parse (text : String) : EndsAlike (Reference.parse text) (Reference.parse text) := by
  cases parse : Reference.parse text with
  | ok parsed => exact .ok parsed
  | error e => exact .error (Reference.isAboutChain_of_parse parse)

/-- The value of a keyword is told by what is read; that it has the wrong form is no end of a
chain. -/
theorem as {form : KeywordForm α} {read others : KeywordReader} {keyword : String}
    (checked : ∀ value, EndsAlike (form keyword value) (form keyword value))
    (same : EndsAlike (read keyword) (others keyword)) :
    EndsAlike (read.as form keyword) (others.as form keyword) := by
  refine same.bind fun value _ => ?_
  cases value with
  | none => exact .ok none
  | some value => exact (checked value).bind fun _ _ => .ok _

theorem string (keyword : String) (value : Json) :
    EndsAlike (KeywordForm.string keyword value) (KeywordForm.string keyword value) := by
  cases value with
  | str text => exact .ok text
  | _ => exact .error rfl

theorem inherits (keyword : String) (value : Json) :
    EndsAlike (KeywordForm.inherits keyword value) (KeywordForm.inherits keyword value) := by
  cases value with
  | str name => exact .ok _
  | bool value => exact .ok _
  | _ => exact .error rfl

end EndsAlike

/-- A chain of references to targets with some keys, each once, that may be prolonged by enough
references to meet every key. -/
structure ChainWithin (keys visited : List String) (hops : Nat) : Prop where
  distinct : visited.Nodup
  within : visited ⊆ keys
  enough : keys.length ≤ hops + visited.length

namespace ChainWithin

variable {keys visited : List String} {key : String} {hops : Nat}

theorem start (enough : keys.length ≤ hops) : ChainWithin keys [] hops :=
  ⟨List.nodup_nil, List.nil_subset _, by simpa using enough⟩

/-- A chain that can be prolonged by a key has a reference left for it. -/
theorem prolong (chain : ChainWithin keys visited hops) (member : key ∈ keys)
    (fresh : key ∉ visited) :
    ∃ fewer, hops = fewer + 1 ∧ ChainWithin keys (visited ++ [key]) fewer := by
  have distinct : (visited ++ [key]).Nodup := by
    simpa [List.nodup_append] using ⟨chain.distinct, fun other before same => fresh (same ▸ before)⟩
  have subset : visited ++ [key] ⊆ keys := by
    intro other found
    rcases List.mem_append.mp found with before | last
    · exact chain.within before
    · rwa [List.mem_singleton.mp last]
  have bound := (List.subperm_of_subset distinct subset).length_le
  have enough := chain.enough
  simp only [List.length_append, List.length_singleton] at bound
  cases hops with
  | zero => omega
  | succ fewer => exact ⟨fewer, rfl, distinct, subset, by simp; omega⟩

end ChainWithin

namespace Registry

variable {registry other : Registry} {keys visited : List String} {schema target : Json}
  {own : Keyed Json} {text name next keyword : String} {parsed : Reference}
  {skip wanted : Option String} {hops more : Nat} {arrival : Arrival}

/-- Every reference that a schema is composed of leads to the same in two registries, to a target
with one of some keys. -/
structure ReachesAlike (registry other : Registry) (keys : List String) (schema : Json) :
    Prop where
  leads : ∀ text parsed, registry.ReachesReference schema text →
    Reference.parse text = .ok parsed →
    EndsAlike (registry.target text parsed) (other.target text parsed)
  within : ∀ text parsed found, registry.ReachesReference schema text →
    Reference.parse text = .ok parsed → registry.target text parsed = .ok found →
    parsed.key ∈ keys

namespace ReachesAlike

variable (reaches : ReachesAlike registry other keys schema)

theorem of_fragment {items : List Json} {item : Json}
    (reaches : ReachesAlike registry other keys (.obj own))
    (noReference : Keyed.get? own "$ref" = none)
    (written : Keyed.get? own "allOf" = some (.arr items)) (member : item ∈ items) :
    ReachesAlike registry other keys item where
  leads text parsed reached :=
    reaches.leads text parsed (reached.of_fragment noReference written member)
  within text parsed found reached :=
    reaches.within text parsed found (reached.of_fragment noReference written member)

include reaches

theorem arrive (reached : registry.ReachesReference schema text)
    (parse : Reference.parse text = .ok parsed) :
    EndsAlike (registry.arrive visited text parsed) (other.arrive visited text parsed) := by
  unfold Registry.arrive
  split
  · exact ⟨rfl, by simp⟩
  · exact (reaches.leads text parsed reached parse).bind fun _ _ => .ok _

/-- What is arrived at reaches alike again. -/
theorem of_arrive (reached : registry.ReachesReference schema text)
    (parse : Reference.parse text = .ok parsed)
    (arrived : registry.arrive visited text parsed = .ok arrival) :
    ReachesAlike registry other keys arrival.schema := by
  obtain ⟨-, led, -⟩ := arrive_eq_ok.mp arrived
  exact ⟨fun _ _ later => reaches.leads _ _ (reached.trans parse led later),
    fun _ _ _ later => reaches.within _ _ _ (reached.trans parse led later)⟩

/-- A chain that arrives somewhere had a reference left for it. -/
theorem prolong (reached : registry.ReachesReference schema text)
    (parse : Reference.parse text = .ok parsed)
    (arrived : registry.arrive visited text parsed = .ok arrival)
    (chain : ChainWithin keys visited hops) :
    ∃ fewer, hops = fewer + 1 ∧ ChainWithin keys arrival.visited fewer := by
  obtain ⟨fresh, led, onChain⟩ := arrive_eq_ok.mp arrived
  rw [onChain]
  exact chain.prolong (reaches.within text parsed _ reached parse led) fresh

omit reaches

theorem step (reaches : ReachesAlike registry other keys (.obj own))
    (reference : Keyed.get? own "$ref" = some target) :
    EndsAlike (registry.step skip visited target) (other.step skip visited target) := by
  cases target with
  | str text =>
    refine (EndsAlike.ok text).bind fun _ isText => ?_
    obtain rfl := Except.ok.inj isText
    refine (EndsAlike.parse text).bind fun parsed parse => ?_
    split
    · exact .ok none
    · exact (reaches.arrive (.self reference) parse).bind fun _ _ => .ok _
  | _ => exact .error rfl

/-- Following a reference comes to the same if what is done at its target does. -/
theorem follow {f g : Nat → Arrival → Except SchemaError α} {absent : α}
    (reaches : ReachesAlike registry other keys (.obj own))
    (reference : Keyed.get? own "$ref" = some target)
    (chain : ChainWithin keys visited hops) (chainToo : ChainWithin keys visited more)
    (next : ∀ fewer others arrival, fewer < hops → ReachesAlike registry other keys arrival.schema →
      ChainWithin keys arrival.visited fewer → ChainWithin keys arrival.visited others →
      EndsAlike (f fewer arrival) (g others arrival)) :
    EndsAlike
      (do match ← registry.step skip visited target with
        | none => return absent
        | some (reference, arrival) => match hops with
          | 0 => .error (.notFound (.endless reference))
          | hops + 1 => f hops arrival)
      (do match ← other.step skip visited target with
        | none => return absent
        | some (reference, arrival) => match more with
          | 0 => .error (.notFound (.endless reference))
          | more + 1 => g more arrival) := by
  refine (reaches.step reference).bind fun found stepped => ?_
  cases found with
  | none => exact .ok absent
  | some found =>
    obtain ⟨text, arrival⟩ := found
    obtain ⟨rfl, parsed, parse, -, arrived⟩ := step_eq_some stepped
    obtain ⟨fewer, rfl, prolonged⟩ := reaches.prolong (.self reference) parse arrived chain
    obtain ⟨others, rfl, prolongedToo⟩ := reaches.prolong (.self reference) parse arrived chainToo
    exact next fewer others arrival (Nat.lt_succ_self fewer)
      (reaches.of_arrive (.self reference) parse arrived) prolonged prolongedToo

include reaches

theorem flattenWith {follow followToo : Json → Except SchemaError FlatSchema}
    (each : ∀ own target, ReachesAlike registry other keys (.obj own) →
      Keyed.get? own "$ref" = some target → EndsAlike (follow target) (followToo target)) :
    EndsAlike (schema.composition.flattenWith follow name)
      (schema.composition.flattenWith followToo name) := by
  induction schema using Json.byComposition with
  | notObject schema notObject =>
    rw [Json.composition_notObject notObject]
    exact .error rfl
  | plain own noReference noFragments =>
    rw [Json.composition_plain noReference noFragments]
    exact .ok _
  | reference own target reference =>
    rw [Json.composition_reference reference]
    exact each own target reaches reference
  | malformed own value noReference written noList =>
    rw [Json.composition_malformed noReference written noList]
    exact .error rfl
  | fragments own items noReference written ih =>
    rw [Json.composition_fragments noReference written, Composition.flattenWith,
      Composition.flattenWith, flattenAllWith_map, flattenAllWith_map]
    refine EndsAlike.bind (.mapM fun item member => ?_) fun _ _ => .ok _
    exact (ih item member (reaches.of_fragment noReference written member)).map _

theorem effectiveWith {follow followToo : Json → Except SchemaError (Option Json)}
    (each : ∀ own target, ReachesAlike registry other keys (.obj own) →
      Keyed.get? own "$ref" = some target → EndsAlike (follow target) (followToo target)) :
    EndsAlike (schema.composition.effectiveWith follow keyword)
      (schema.composition.effectiveWith followToo keyword) := by
  induction schema using Json.byComposition with
  | notObject schema notObject =>
    rw [Json.composition_notObject notObject]
    exact .error rfl
  | plain own noReference noFragments =>
    rw [Json.composition_plain noReference noFragments]
    exact .ok _
  | reference own target reference =>
    rw [Json.composition_reference reference]
    unfold Composition.effectiveWith
    split
    · exact .ok _
    · exact each own target reaches reference
  | malformed own value noReference written noList =>
    rw [Json.composition_malformed noReference written noList]
    unfold Composition.effectiveWith
    split
    · exact .ok _
    · exact .error rfl
  | fragments own items noReference written ih =>
    have each : ∀ item ∈ items, EndsAlike (item.composition.effectiveWith follow keyword)
        (item.composition.effectiveWith followToo keyword) := fun item member =>
      ih item member (reaches.of_fragment noReference written member)
    rw [Json.composition_fragments noReference written]
    unfold Composition.effectiveWith
    split
    · exact .ok _
    · clear ih written
      induction items with
      | nil => exact .ok none
      | cons item rest ih =>
        simp only [List.map_cons, Composition.firstEffectiveWith]
        refine (each item List.mem_cons_self).bind fun value _ => ?_
        cases value with
        | some value => exact .ok _
        | none => exact ih fun other member => each other (List.mem_cons_of_mem _ member)

/-- Flattening does not depend on how many references more than enough may be followed. -/
theorem flattenFrom (chain : ChainWithin keys visited hops)
    (chainToo : ChainWithin keys visited more) :
    EndsAlike (registry.flattenFrom skip hops visited name schema)
      (other.flattenFrom skip more visited name schema) := by
  induction hops using Nat.strongRecOn generalizing more visited name schema with
  | ind hops shorter =>
  unfold Registry.flattenFrom
  refine reaches.flattenWith fun own target reachesToo reference => ?_
  exact reachesToo.follow reference chain chainToo
    fun fewer others arrival less onwards prolonged prolongedToo =>
      shorter fewer less onwards prolonged prolongedToo

/-- No more do effective keywords. -/
theorem effectiveFrom (chain : ChainWithin keys visited hops)
    (chainToo : ChainWithin keys visited more) :
    EndsAlike (registry.effectiveFrom skip keyword hops visited schema)
      (other.effectiveFrom skip keyword more visited schema) := by
  induction hops using Nat.strongRecOn generalizing more visited schema with
  | ind hops shorter =>
  unfold Registry.effectiveFrom
  refine reaches.effectiveWith fun own target reachesToo reference => ?_
  exact reachesToo.follow reference chain chainToo
    fun fewer others arrival less onwards prolonged prolongedToo =>
      shorter fewer less onwards prolonged prolongedToo

omit reaches

section Limits

variable (enough : keys.length ≤ registry.chainLimit) (enoughToo : keys.length ≤ other.chainLimit)

include enough enoughToo

theorem isParent (reaches : ReachesAlike registry other keys arrival.schema) :
    EndsAlike (registry.isParent wanted arrival) (other.isParent wanted arrival) := by
  cases wanted with
  | some name => exact .ok _
  | none =>
    refine EndsAlike.bind (.as (EndsAlike.string _) ?_) fun _ _ => .ok _
    exact reaches.effectiveFrom (.start enough) (.start enoughToo)

include reaches

theorem searchParent (chain : ChainWithin keys visited hops)
    (chainToo : ChainWithin keys visited more) :
    EndsAlike (registry.searchParent wanted hops visited schema)
      (other.searchParent wanted more visited schema) := by
  induction hops using Nat.strongRecOn generalizing more visited schema with
  | ind hops shorter =>
  unfold Registry.searchParent
  refine .findSomeM? fun text member => ?_
  have reached : registry.ReachesReference schema text := reachesReference_of_mem member
  refine (EndsAlike.parse text).bind fun parsed parse => ?_
  refine (reaches.arrive reached parse).bind fun arrival arrived => ?_
  have onwards := reaches.of_arrive reached parse arrived
  refine (isParent enough enoughToo onwards).bind fun isParent _ => ?_
  obtain ⟨fewer, rfl, prolonged⟩ := reaches.prolong reached parse arrived chain
  obtain ⟨others, rfl, prolongedToo⟩ := reaches.prolong reached parse arrived chainToo
  split
  · exact .ok _
  · exact shorter fewer (Nat.lt_succ_self fewer) onwards prolonged prolongedToo

theorem parent? : EndsAlike (registry.parent? name schema) (other.parent? name schema) := by
  have search : ∀ wanted (next : Option String → Except SchemaError (Option String)),
      (∀ parent, EndsAlike (next (some parent)) (next (some parent))) →
      EndsAlike (next none) (next none) →
      EndsAlike (registry.searchParent wanted registry.chainLimit [] schema >>= next)
        (other.searchParent wanted other.chainLimit [] schema >>= next) := by
    intro wanted next foundAlike missingAlike
    refine (reaches.searchParent enough enoughToo (.start enough) (.start enoughToo)).bind
      fun found _ => ?_
    cases found with
    | some parent => exact foundAlike parent
    | none => exact missingAlike
  refine (reaches.flattenFrom (.start enough) (.start enoughToo)).bind fun flat _ => ?_
  refine EndsAlike.bind (.as (EndsAlike.inherits _) (.ok _)) fun inherits _ => ?_
  cases inherits with
  | none => exact .ok none
  | some inherits =>
    cases inherits with
    | enabled value =>
      cases value with
      | false => exact .ok none
      | true => exact search none _ (fun _ => .ok _) (.error rfl)
    | parent parent => exact search (some parent) _ (fun _ => .ok _) (.error rfl)

/-- What belongs to an entity itself, and its parent, are told by what the references lead to. -/
theorem ownSchema : EndsAlike (registry.ownSchema name schema) (other.ownSchema name schema) := by
  refine (reaches.parent? enough enoughToo).bind fun parent _ => ?_
  exact (reaches.flattenFrom (.start enough) (.start enoughToo)).bind fun _ _ => .ok _

end Limits

end ReachesAlike

theorem chainLimit_ge (registry : Registry) : registry.entries.length ≤ registry.chainLimit :=
  Nat.le_add_right _ _

/-- Where every reference stays within the registry, it leads to the same in every registry with
these entities. -/
theorem ComposedLocally.reachesAlike (references : registry.ComposedLocally schema)
    (sameEntries : other.entries = registry.entries) :
    ReachesAlike registry other registry.names schema where
  leads text parsed reached parse := by
    obtain ⟨name, rfl⟩ := references text reached parsed parse
    have sameEntry : other.get? name = registry.get? name := by rw [get?, get?, sameEntries]
    unfold target
    dsimp only
    rw [sameEntry]
    cases registry.get? name with
    | none => exact .error rfl
    | some schema => exact .ok _
  within text parsed found reached parse led := by
    obtain ⟨name, rfl⟩ := references text reached parsed parse
    exact Keyed.mem_keys_of_get? (target_entity_eq_ok.mp led).2

theorem length_names_le (registry : Registry) : registry.names.length ≤ registry.chainLimit := by
  simpa [names, Keyed.keys] using registry.chainLimit_ge

end Registry

end EntityMapping
