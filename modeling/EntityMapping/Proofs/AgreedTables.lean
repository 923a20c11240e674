import EntityMapping.Proofs.Runs
import EntityMapping.Proofs.SettledTables

/-!
Association tables that agree. The columns of a table have no default and no arguments, so comparing
them compares all that they are, and tables that are equivalent to one table are so to each other.
Which of them is collected first does not matter then.
-/

set_option autoImplicit false
set_option relaxedAutoImplicit false

namespace EntityMapping

namespace Column

/-- Columns without a default and without arguments. -/
def IsBare (column : Column) : Prop := column.default = none ∧ column.arguments = none

theorem IsBare.sameValue_iff {one other : Column} (bare : one.IsBare) (bareToo : other.IsBare) :
    one.sameValue other = true ↔ one = other := by
  obtain ⟨noDefault, noArguments⟩ := bare
  obtain ⟨noDefaultToo, noArgumentsToo⟩ := bareToo
  cases one
  cases other
  simp_all [sameValue, and_assoc]

/-- A schema without a default and without arguments makes such a column. -/
theorem isBare_of_ofKeywords {read : KeywordReader} {required : Option Bool} {column : Column}
    (built : ofKeywords read required = .ok column) (noDefault : read "default" = .ok none)
    (noArguments : read "x-kwargs" = .ok none) : column.IsBare := by
  have default : read.default? = .ok none := by
    rw [KeywordReader.default?, noDefault]
    rfl
  have arguments : read.arguments? = .ok none := by
    rw [KeywordReader.arguments?, KeywordReader.as, noArguments]
    rfl
  obtain ⟨-, -, -, -, argumentsFound, -, defaultFound⟩ := columnOf_of_ofKeywords built
  exact ⟨(Except.ok.inj (default.symm.trans defaultFound)).symm,
    (Except.ok.inj (arguments.symm.trans argumentsFound)).symm⟩

end Column

namespace AssociationTable

variable {one other third : AssociationTable}

/-- Tables of one name with the same columns, whichever side comes first. -/
def Twins (one other : AssociationTable) : Prop :=
  one.name = other.name ∧ (one.first = other.first ∧ one.second = other.second ∨
    one.first = other.second ∧ one.second = other.first)

namespace Twins

theorem refl (table : AssociationTable) : table.Twins table := ⟨rfl, .inl ⟨rfl, rfl⟩⟩

theorem symm (twins : one.Twins other) : other.Twins one := by
  obtain ⟨name, ⟨first, second⟩ | ⟨first, second⟩⟩ := twins
  · exact ⟨name.symm, .inl ⟨first.symm, second.symm⟩⟩
  · exact ⟨name.symm, .inr ⟨second.symm, first.symm⟩⟩

theorem trans (twins : one.Twins other) (twinsToo : other.Twins third) : one.Twins third := by
  obtain ⟨name, sides⟩ := twins
  obtain ⟨nameToo, sidesToo⟩ := twinsToo
  refine ⟨name.trans nameToo, ?_⟩
  rcases sides with ⟨first, second⟩ | ⟨first, second⟩ <;>
    rcases sidesToo with ⟨firstToo, secondToo⟩ | ⟨firstToo, secondToo⟩
  · exact .inl ⟨first.trans firstToo, second.trans secondToo⟩
  · exact .inr ⟨first.trans firstToo, second.trans secondToo⟩
  · exact .inr ⟨first.trans secondToo, second.trans firstToo⟩
  · exact .inl ⟨first.trans secondToo, second.trans firstToo⟩

end Twins

/-- The columns of both sides are bare. -/
def IsBare (table : AssociationTable) : Prop :=
  table.first.column.IsBare ∧ table.second.column.IsBare

theorem IsBare.isEquivalent_iff (bare : one.IsBare) (bareToo : other.IsBare) :
    one.isEquivalent other = true ↔ one.Twins other := by
  have sides : ∀ {side another : AssociationColumn}, side.column.IsBare → another.column.IsBare →
      (side.sameValue another = true ↔ side = another) := by
    intro side another isBare isBareToo
    obtain ⟨name, column⟩ := side
    obtain ⟨nameToo, columnToo⟩ := another
    rw [AssociationColumn.sameValue, Bool.and_eq_true, isBare.sameValue_iff isBareToo, beq_iff_eq,
      AssociationColumn.mk.injEq]
  obtain ⟨first, second⟩ := bare
  obtain ⟨firstToo, secondToo⟩ := bareToo
  simp only [isEquivalent, Twins, Bool.and_eq_true, Bool.or_eq_true, beq_iff_eq,
    sides firstToo first, sides secondToo second, sides firstToo second, sides secondToo first]
  rw [@eq_comm _ other.first, @eq_comm _ other.second, @eq_comm _ other.first,
    @eq_comm _ other.second]
  tauto

end AssociationTable

namespace Registry

variable {registry : Registry} {table other : AssociationTable}

/-- A relationship needs an association table. -/
def NeedsTable (registry : Registry) (table : AssociationTable) : Prop :=
  ∃ entity relationship secondary, registry.Relates entity relationship ∧
    relationship.cardinality = .manyToMany secondary ∧
    registry.association secondary entity relationship.modelName = .ok table

theorem isBare_of_associationSide {secondary name : String} {side : AssociationColumn}
    (found : registry.associationSide secondary name = .ok side) : side.column.IsBare := by
  obtain ⟨_, _, tablename, property, key, -, -, -, -, built⟩ := associationSide_eq_ok.mp found
  obtain ⟨type, format, maxLength, column, -, -, -, isColumn, rfl⟩ :=
    associationColumn_eq_ok.mp built
  have notSaid : ∀ keyword ∈ ["default", "x-kwargs"], presentValue? (ForeignKey.columnSchema type
      format maxLength none (ForeignKey.target tablename property)) keyword = none := by
    intro keyword member
    simp only [List.mem_cons, List.not_mem_nil, or_false] at member
    rw [presentValue?, ForeignKey.get?_columnSchema]
    rcases member with rfl | rfl <;> rfl
  dsimp only [Column.ofSchema] at isColumn
  split at isColumn
  · exact Column.isBare_of_ofKeywords isColumn
      (congrArg Except.ok (notSaid "default" (by decide)))
      (congrArg Except.ok (notSaid "x-kwargs" (by decide)))
  · cases isColumn

theorem isBare_of_association {secondary left right : String}
    (found : registry.association secondary left right = .ok table) :
    table.IsBare := by
  obtain ⟨first, second, foundFirst, foundSecond, -, rfl⟩ := association_eq_ok.mp found
  exact ⟨isBare_of_associationSide foundFirst, isBare_of_associationSide foundSecond⟩

theorem NeedsTable.isBare (needs : registry.NeedsTable table) : table.IsBare := by
  obtain ⟨entity, relationship, secondary, -, -, found⟩ := needs
  exact isBare_of_association found

theorem NeedsTable.isEquivalent_iff (needs : registry.NeedsTable table)
    (needsToo : registry.NeedsTable other) : table.isEquivalent other = true ↔ table.Twins other :=
  needs.isBare.isEquivalent_iff needsToo.isBare

end Registry

end EntityMapping
