import EntityMapping.Proofs.AgreedTables
import EntityMapping.Proofs.Reordering

/-!
Sameness of values. Objects are the same whatever the order of their keys, so sameness of values is
coarser than equality; where no object has a key twice it is an equivalence relation, and so are
sameness of columns and of association tables, of which either side may come first.
-/

set_option autoImplicit false
set_option relaxedAutoImplicit false

namespace EntityMapping

open Keyed (Distinct)

namespace Binary64

variable {one other third : Binary64}

theorem sameValue_symm (same : one.sameValue other = true) : other.sameValue one = true := by
  simp only [sameValue, Bool.or_eq_true, Bool.and_eq_true, beq_iff_eq] at same ⊢
  exact same.imp Eq.symm And.symm

theorem sameValue_trans (same : one.sameValue other = true)
    (sameToo : other.sameValue third = true) : one.sameValue third = true := by
  simp only [sameValue, Bool.or_eq_true, Bool.and_eq_true, beq_iff_eq] at same sameToo ⊢
  rcases same with rfl | ⟨isZero, isZeroOther⟩
  · exact sameToo
  · rcases sameToo with rfl | ⟨-, isZeroToo⟩
    · exact .inr ⟨isZero, isZeroOther⟩
    · exact .inr ⟨isZero, isZeroToo⟩

end Binary64

namespace Keyed

variable {α β : Type}

/-- Where one list of pairs has every key of another one, and as many pairs, the keys are the
same. -/
theorem mem_keys_of_length_eq {fields : Keyed α} {others : Keyed β} {key : String}
    (distinct : Distinct fields) (length : fields.length = others.length)
    (subset : keys fields ⊆ keys others) (member : key ∈ keys others) : key ∈ keys fields := by
  have perm : (keys fields).Perm (keys others) :=
    (List.subperm_of_subset distinct subset).perm_of_length_le (by simp [keys, length])
  exact perm.mem_iff.mpr member

theorem get?_of_mem_keys {fields : Keyed α} {key : String} (member : key ∈ keys fields) :
    ∃ value, get? fields key = some value := by
  cases found : get? fields key with
  | none => exact absurd member ((get?_eq_none_iff fields key).mp found)
  | some value => exact ⟨value, rfl⟩

end Keyed

namespace Json

/-- Objects that are the same have the same keys, since they have equally many. -/
theorem mem_keys_of_sameValue {fields others : Keyed Json} (distinct : Keyed.Distinct fields)
    (same : (Json.obj fields).sameValue (.obj others) = true) (key : String) :
    key ∈ Keyed.keys fields ↔ key ∈ Keyed.keys others := by
  rw [sameValue, Bool.and_eq_true, sameFields_iff, beq_iff_eq] at same
  obtain ⟨length, found⟩ := same
  have subset : Keyed.keys fields ⊆ Keyed.keys others := by
    intro key member
    obtain ⟨field, inFields, rfl⟩ := List.mem_map.mp member
    obtain ⟨value, isThere, -⟩ := found field inFields
    exact Keyed.mem_keys_of_get? isThere
  exact ⟨fun member => subset member, Keyed.mem_keys_of_length_eq distinct length subset⟩

mutual

theorem sameValue_symm : ∀ one other : Json, one.isWellKeyed = true → other.isWellKeyed = true →
    one.sameValue other = true → other.sameValue one = true
  | .null, other, _, _, same => by cases other <;> simp_all [sameValue]
  | .bool value, other, _, _, same => by cases other <;> simp_all [sameValue]
  | .int value, other, _, _, same => by cases other <;> simp_all [sameValue]
  | .str value, other, _, _, same => by cases other <;> simp_all [sameValue]
  | .float value, other, _, _, same => by
    cases other with
    | float other => exact @Binary64.sameValue_symm value other (by simpa [sameValue] using same)
    | _ => simp [sameValue] at same
  | .arr items, other, whole, wholeToo, same => by
    cases other with
    | arr others =>
      rw [sameValue] at same ⊢
      exact sameItems_symm items others ((isWellKeyed_arr items).mp whole)
        ((isWellKeyed_arr others).mp wholeToo) same
    | _ => simp [sameValue] at same
  | .obj fields, other, whole, wholeToo, same => by
    cases other with
    | obj others =>
      obtain ⟨distinct, values⟩ := (isWellKeyed_obj fields).mp whole
      obtain ⟨distinctToo, valuesToo⟩ := (isWellKeyed_obj others).mp wholeToo
      have each := sameFields_symm fields values
      have sameKeys := mem_keys_of_sameValue distinct same
      rw [sameValue, Bool.and_eq_true, sameFields_iff, beq_iff_eq] at same ⊢
      obtain ⟨length, found⟩ := same
      refine ⟨length.symm, fun ⟨key, other⟩ member => ?_⟩
      have inFields := (sameKeys key).mpr (List.mem_map.mpr ⟨_, member, rfl⟩)
      obtain ⟨value, isThere⟩ := Keyed.get?_of_mem_keys inFields
      obtain ⟨again, isOther, sameHere⟩ := found _ (Keyed.mem_of_get? isThere)
      obtain rfl := Option.some.inj ((Keyed.get?_of_mem distinctToo member).symm.trans isOther)
      exact ⟨value, isThere,
        each _ (Keyed.mem_of_get? isThere) other (valuesToo _ member) sameHere⟩
    | _ => simp [sameValue] at same

theorem sameItems_symm : ∀ items others : List Json, (∀ item ∈ items, item.isWellKeyed = true) →
    (∀ item ∈ others, item.isWellKeyed = true) → sameItems items others = true →
    sameItems others items = true
  | [], others, _, _, same => by cases others <;> simp_all [sameItems]
  | item :: rest, others, whole, wholeToo, same => by
    cases others with
    | nil => simp [sameItems] at same
    | cons other more =>
      obtain ⟨here, later⟩ := List.forall_mem_cons.mp whole
      obtain ⟨hereToo, laterToo⟩ := List.forall_mem_cons.mp wholeToo
      rw [sameItems, Bool.and_eq_true] at same ⊢
      exact ⟨sameValue_symm item other here hereToo same.1,
        sameItems_symm rest more later laterToo same.2⟩

theorem sameFields_symm : ∀ fields : List (String × Json),
    (∀ field ∈ fields, field.2.isWellKeyed = true) →
    ∀ field ∈ fields, ∀ other : Json, other.isWellKeyed = true →
      field.2.sameValue other = true → other.sameValue field.2 = true
  | [], _ => by simp
  | (key, value) :: rest, whole => by
    obtain ⟨here, later⟩ := List.forall_mem_cons.mp whole
    intro field member
    rcases List.mem_cons.mp member with rfl | inRest
    · exact fun other wholeToo => sameValue_symm value other here wholeToo
    · exact sameFields_symm rest later field inRest

end

mutual

theorem sameValue_trans : ∀ one other third : Json, one.sameValue other = true →
    other.sameValue third = true → one.sameValue third = true
  | .null, other, third, same, sameToo => by
    cases other with
    | null => exact sameToo
    | _ => simp [sameValue] at same
  | .bool value, other, third, same, sameToo => by
    cases other with
    | bool other =>
      obtain rfl : value = other := by simpa [sameValue] using same
      exact sameToo
    | _ => simp [sameValue] at same
  | .int value, other, third, same, sameToo => by
    cases other with
    | int other =>
      obtain rfl : value = other := by simpa [sameValue] using same
      exact sameToo
    | _ => simp [sameValue] at same
  | .str value, other, third, same, sameToo => by
    cases other with
    | str other =>
      obtain rfl : value = other := by simpa [sameValue] using same
      exact sameToo
    | _ => simp [sameValue] at same
  | .float value, other, third, same, sameToo => by
    cases other with
    | float other =>
      cases third with
      | float third =>
        rw [sameValue] at same sameToo ⊢
        exact Binary64.sameValue_trans same sameToo
      | _ => simp [sameValue] at sameToo
    | _ => simp [sameValue] at same
  | .arr items, other, third, same, sameToo => by
    cases other with
    | arr others =>
      cases third with
      | arr thirds =>
        rw [sameValue] at same sameToo ⊢
        exact sameItems_trans items others thirds same sameToo
      | _ => simp [sameValue] at sameToo
    | _ => simp [sameValue] at same
  | .obj fields, other, third, same, sameToo => by
    cases other with
    | obj others =>
      cases third with
      | obj thirds =>
        have each := sameFields_trans fields
        rw [sameValue, Bool.and_eq_true, sameFields_iff, beq_iff_eq] at same sameToo ⊢
        refine ⟨same.1.trans sameToo.1, fun field member => ?_⟩
        obtain ⟨value, isThere, sameHere⟩ := same.2 field member
        obtain ⟨last, isLast, sameThere⟩ := sameToo.2 _ (Keyed.mem_of_get? isThere)
        exact ⟨last, isLast, each field member value last sameHere sameThere⟩
      | _ => simp [sameValue] at sameToo
    | _ => simp [sameValue] at same

theorem sameItems_trans : ∀ items others thirds : List Json, sameItems items others = true →
    sameItems others thirds = true → sameItems items thirds = true
  | [], others, thirds, same, sameToo => by cases others <;> simp_all [sameItems]
  | item :: rest, others, thirds, same, sameToo => by
    cases others with
    | nil => simp [sameItems] at same
    | cons other more =>
      cases thirds with
      | nil => simp [sameItems] at sameToo
      | cons third most =>
        rw [sameItems, Bool.and_eq_true] at same sameToo ⊢
        exact ⟨sameValue_trans item other third same.1 sameToo.1,
          sameItems_trans rest more most same.2 sameToo.2⟩

theorem sameFields_trans : ∀ fields : List (String × Json), ∀ field ∈ fields, ∀ other third : Json,
    field.2.sameValue other = true → other.sameValue third = true →
      field.2.sameValue third = true
  | [] => by simp
  | (key, value) :: rest => by
    intro field member
    rcases List.mem_cons.mp member with rfl | inRest
    · exact sameValue_trans value
    · exact sameFields_trans rest field inRest

end

end Json

/-- The same value, or none on either side. -/
abbrev SameIfPresent : Option Json → Option Json → Prop :=
  Option.Rel fun one other => one.sameValue other = true

namespace SameIfPresent

variable {one other third : Option Json}

theorem iff_beq : SameIfPresent one other ↔ (one == other) = true := by
  cases one with
  | none => cases other <;> simp [SameIfPresent]
  | some value =>
    cases other with
    | none => simp [SameIfPresent]
    | some other =>
      rw [SameIfPresent, Option.rel_some_some, Option.some_beq_some]
      rfl

theorem refl (whole : ∀ value ∈ one, value.isWellKeyed = true) : SameIfPresent one one := by
  cases one with
  | none => exact .none
  | some value => exact .some (Json.sameValue_self value (whole value rfl))

theorem symm (whole : ∀ value ∈ one, value.isWellKeyed = true)
    (wholeToo : ∀ value ∈ other, value.isWellKeyed = true) (same : SameIfPresent one other) :
    SameIfPresent other one := by
  cases same with
  | none => exact .none
  | some same => exact .some (Json.sameValue_symm _ _ (whole _ rfl) (wholeToo _ rfl) same)

theorem trans (same : SameIfPresent one other) (sameToo : SameIfPresent other third) :
    SameIfPresent one third := by
  cases same with
  | none => exact sameToo
  | some same =>
    cases sameToo with
    | some sameToo => exact .some (Json.sameValue_trans _ _ _ same sameToo)

end SameIfPresent

namespace Column

variable {one other third : Column}

/-- The values of a column have no object with a key twice. -/
structure IsWellKeyed (column : Column) : Prop where
  default : ∀ value ∈ column.default, value.isWellKeyed = true
  arguments : ∀ value ∈ column.arguments.map Json.obj, value.isWellKeyed = true

theorem IsBare.isWellKeyed (bare : one.IsBare) : one.IsWellKeyed where
  default := by simp [bare.1]
  arguments := by simp [bare.2]

/-- Columns are the same if all but their values is equal and their values are the same. -/
theorem sameValue_iff : one.sameValue other = true ↔
    ({ one with default := none, arguments := none } : Column) =
      { other with default := none, arguments := none } ∧
    SameIfPresent one.default other.default ∧
    SameIfPresent (one.arguments.map Json.obj) (other.arguments.map Json.obj) := by
  cases one
  cases other
  simp only [sameValue, Bool.and_eq_true, beq_iff_eq, SameIfPresent.iff_beq, Column.mk.injEq]
  tauto

theorem sameValue_refl (whole : one.IsWellKeyed) : one.sameValue one = true :=
  sameValue_iff.mpr ⟨rfl, .refl whole.default, .refl whole.arguments⟩

theorem sameValue_symm (whole : one.IsWellKeyed) (wholeToo : other.IsWellKeyed)
    (same : one.sameValue other = true) : other.sameValue one = true := by
  obtain ⟨all, default, arguments⟩ := sameValue_iff.mp same
  exact sameValue_iff.mpr ⟨all.symm, default.symm whole.default wholeToo.default,
    arguments.symm whole.arguments wholeToo.arguments⟩

theorem sameValue_trans (same : one.sameValue other = true)
    (sameToo : other.sameValue third = true) : one.sameValue third = true := by
  obtain ⟨all, default, arguments⟩ := sameValue_iff.mp same
  obtain ⟨allToo, defaultToo, argumentsToo⟩ := sameValue_iff.mp sameToo
  exact sameValue_iff.mpr ⟨all.trans allToo, default.trans defaultToo, arguments.trans argumentsToo⟩

end Column

namespace AssociationColumn

variable {one other third : AssociationColumn}

theorem sameValue_iff : one.sameValue other = true ↔
    one.name = other.name ∧ one.column.sameValue other.column = true := by
  simp [sameValue]

theorem sameValue_refl (whole : one.column.IsWellKeyed) : one.sameValue one = true :=
  sameValue_iff.mpr ⟨rfl, Column.sameValue_refl whole⟩

theorem sameValue_symm (whole : one.column.IsWellKeyed) (wholeToo : other.column.IsWellKeyed)
    (same : one.sameValue other = true) : other.sameValue one = true := by
  obtain ⟨name, column⟩ := sameValue_iff.mp same
  exact sameValue_iff.mpr ⟨name.symm, Column.sameValue_symm whole wholeToo column⟩

theorem sameValue_trans (same : one.sameValue other = true)
    (sameToo : other.sameValue third = true) : one.sameValue third = true := by
  obtain ⟨name, column⟩ := sameValue_iff.mp same
  obtain ⟨nameToo, columnToo⟩ := sameValue_iff.mp sameToo
  exact sameValue_iff.mpr ⟨name.trans nameToo, Column.sameValue_trans column columnToo⟩

end AssociationColumn

namespace AssociationTable

variable {one other third : AssociationTable}

/-- The columns of a table have no object with a key twice. -/
structure IsWellKeyed (table : AssociationTable) : Prop where
  first : table.first.column.IsWellKeyed
  second : table.second.column.IsWellKeyed

theorem isEquivalent_iff : one.isEquivalent other = true ↔ one.name = other.name ∧
    (other.first.sameValue one.first = true ∧ other.second.sameValue one.second = true ∨
      other.first.sameValue one.second = true ∧ other.second.sameValue one.first = true) := by
  simp [isEquivalent]

theorem isEquivalent_refl (whole : one.IsWellKeyed) : one.isEquivalent one = true :=
  isEquivalent_iff.mpr ⟨rfl, .inl ⟨AssociationColumn.sameValue_refl whole.first,
    AssociationColumn.sameValue_refl whole.second⟩⟩

theorem isEquivalent_symm (whole : one.IsWellKeyed) (wholeToo : other.IsWellKeyed)
    (equivalent : one.isEquivalent other = true) : other.isEquivalent one = true := by
  obtain ⟨name, sides⟩ := isEquivalent_iff.mp equivalent
  refine isEquivalent_iff.mpr ⟨name.symm, ?_⟩
  rcases sides with ⟨first, second⟩ | ⟨first, second⟩
  · exact .inl ⟨AssociationColumn.sameValue_symm wholeToo.first whole.first first,
      AssociationColumn.sameValue_symm wholeToo.second whole.second second⟩
  · exact .inr ⟨AssociationColumn.sameValue_symm wholeToo.second whole.first second,
      AssociationColumn.sameValue_symm wholeToo.first whole.second first⟩

theorem isEquivalent_trans (equivalent : one.isEquivalent other = true)
    (equivalentToo : other.isEquivalent third = true) : one.isEquivalent third = true := by
  obtain ⟨name, sides⟩ := isEquivalent_iff.mp equivalent
  obtain ⟨nameToo, sidesToo⟩ := isEquivalent_iff.mp equivalentToo
  refine isEquivalent_iff.mpr ⟨name.trans nameToo, ?_⟩
  rcases sides with ⟨first, second⟩ | ⟨first, second⟩ <;>
    rcases sidesToo with ⟨firstToo, secondToo⟩ | ⟨firstToo, secondToo⟩
  · exact .inl ⟨AssociationColumn.sameValue_trans firstToo first,
      AssociationColumn.sameValue_trans secondToo second⟩
  · exact .inr ⟨AssociationColumn.sameValue_trans firstToo second,
      AssociationColumn.sameValue_trans secondToo first⟩
  · exact .inr ⟨AssociationColumn.sameValue_trans firstToo first,
      AssociationColumn.sameValue_trans secondToo second⟩
  · exact .inl ⟨AssociationColumn.sameValue_trans firstToo second,
      AssociationColumn.sameValue_trans secondToo first⟩

/-- Tables whose values have no key twice are equivalent to themselves and to each other. -/
theorem equivalence_isEquivalent : Equivalence
    fun one other : { table : AssociationTable // table.IsWellKeyed } =>
      one.1.isEquivalent other.1 = true where
  refl one := isEquivalent_refl one.2
  symm {one other} equivalent := isEquivalent_symm one.2 other.2 equivalent
  trans equivalent equivalentToo := isEquivalent_trans equivalent equivalentToo

end AssociationTable

namespace Registry

variable {registry : Registry} {secondary left right : String} {table : AssociationTable}

/-- The table that joins two entities joins them the other way round as well. -/
theorem association_swap (found : registry.association secondary left right = .ok table) :
    ∃ other, registry.association secondary right left = .ok other ∧ other.Twins table := by
  obtain ⟨first, second, foundFirst, foundSecond, different, rfl⟩ := association_eq_ok.mp found
  exact ⟨⟨secondary, second, first⟩, association_eq_ok.mpr ⟨second, first, foundSecond, foundFirst,
    different.symm, rfl⟩, rfl, .inr ⟨rfl, rfl⟩⟩

end Registry

end EntityMapping
