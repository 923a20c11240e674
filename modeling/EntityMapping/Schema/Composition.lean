import EntityMapping.Json.Basic

/-!
How schemas are composed. A schema refers to another one, or is made of fragments laid over each
other, or stands for itself. Laying fragments over each other joins properties and back references
key by key, joins the lists of required properties, and takes the last value of every other
keyword.
-/

set_option autoImplicit false
set_option relaxedAutoImplicit false

namespace EntityMapping

/-- A schema seen by how it is composed, with the keywords written on it. -/
inductive Composition where
  | notObject
  /-- An object that is not composed. -/
  | plain (own : List (String × Json))
  /-- A reference; what is written beside it does not count. -/
  | reference (target : Json) (own : List (String × Json))
  /-- Fragments, with keywords written beside them. -/
  | all (fragments : List Composition) (own : List (String × Json))
  /-- Fragments that are not given as a list. -/
  | malformed (own : List (String × Json))

namespace Json

mutual

/-- How a schema is composed. -/
def composition : Json → Composition
  | .obj fields =>
      match Keyed.get? fields "$ref" with
      | some target => .reference target fields
      | none =>
          match fragmentsIn fields with
          | none => .plain fields
          | some none => .malformed fields
          | some (some fragments) => .all fragments fields
  | _ => .notObject

/-- The fragments among the fields of an object, if it has any. -/
def fragmentsIn : List (String × Json) → Option (Option (List Composition))
  | [] => none
  | (key, value) :: rest => if key = "allOf" then some (fragmentsOf value) else fragmentsIn rest

/-- The fragments of a list. -/
def fragmentsOf : Json → Option (List Composition)
  | .arr items => some (compositions items)
  | _ => none

def compositions : List Json → List Composition
  | [] => []
  | item :: rest => composition item :: compositions rest

end

theorem compositions_eq_map (items : List Json) : compositions items = items.map composition := by
  induction items with
  | nil => rfl
  | cons item rest ih => simp [compositions, ih]

theorem fragmentsIn_eq (fields : Keyed Json) :
    fragmentsIn fields = (Keyed.get? fields "allOf").map fragmentsOf := by
  induction fields with
  | nil => rfl
  | cons pair rest ih =>
    obtain ⟨key, value⟩ := pair
    by_cases same : key = "allOf" <;> simp [fragmentsIn, Keyed.get?, same, ih]

/-- Whether a schema is an object that is not composed. -/
def isFlat : Json → Bool
  | .obj fields => !Keyed.contains fields "$ref" && !Keyed.contains fields "allOf"
  | _ => false

end Json

/-- How the values of a keyword are joined. -/
inductive Joining where
  /-- Objects are joined key by key, the later value of a key winning. -/
  | byKey
  /-- Lists are joined without repetition, in the order of the first occurrences. -/
  | union
  /-- The later value wins. -/
  | replace
  deriving DecidableEq

/-- How the values of a keyword are joined. -/
def Joining.ofKeyword (keyword : String) : Joining :=
  if keyword = "properties" || keyword = "x-backrefs" then .byKey
  else if keyword = "required" then .union
  else .replace

/-- Add the items that a list does not have yet. -/
def joinItems (existing incoming : List Json) : List Json :=
  incoming.foldl (fun items item => if items.contains item then items else items ++ [item]) existing

/-- The value of a keyword after a later fragment, given its value before. -/
def joinValues (keyword : String) (existing : Option Json) (incoming : Json) : Json :=
  match Joining.ofKeyword keyword, existing, incoming with
  | .byKey, some (.obj old), .obj new => .obj (Keyed.setAll old new)
  | .union, some (.arr old), .arr new => .arr (joinItems old new)
  | _, _, _ => incoming

/-- Lay one keyword of a fragment over the keywords before. -/
def layKeyword (laid : Keyed Json) (field : String × Json) : Keyed Json :=
  Keyed.set laid field.1 (joinValues field.1 (Keyed.get? laid field.1) field.2)

/-- Lay a fragment over the keywords before. -/
def layOver (laid fragment : Keyed Json) : Keyed Json := fragment.foldl layKeyword laid

/-- Lay fragments over each other. -/
def mergeFragments (fragments : List (Keyed Json)) : Keyed Json := fragments.foldl layOver []

/-- Lay the objects among some values over each other. -/
def mergeValues (values : List Json) : Json := .obj (mergeFragments (values.filterMap Json.fields?))

end EntityMapping
