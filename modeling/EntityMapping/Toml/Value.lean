import EntityMapping.Keyed

/-!
The values of a TOML document, and how its lines add to its tables. A table may be added to only
in the way in which it was begun: a header opens a table once, dotted keys add to tables that
dotted keys began, and a table in braces is complete.
-/

set_option autoImplicit false
set_option relaxedAutoImplicit false

namespace EntityMapping

namespace Toml

/-- How a table was begun. -/
inductive Origin where
  /-- By its own header. -/
  | header
  /-- By the header of a table inside it. -/
  | implied
  /-- By a dotted key. -/
  | dotted
  /-- In braces. -/
  | inline
  deriving DecidableEq

/-- A value. The tables of an array of tables are kept newest first. -/
inductive Value where
  | text (value : String)
  | boolean (value : Bool)
  | integer (value : Int)
  | float
  | moment
  | list (items : List Value)
  | table (origin : Origin) (entries : List (String × Value))
  | tables (newestFirst : List Value)

/-- Go down a path of keys, beginning the tables that are missing, and change the entries found at
its end. -/
def descend (dotted : Bool) (change : Origin → Keyed Value → Option (Keyed Value)) :
    (path : List String) → Origin → Keyed Value → Option (Keyed Value)
  | [], origin, entries => change origin entries
  | key :: path, _, entries =>
      match Keyed.get? entries key with
      | none => do
          let begun := if dotted then Origin.dotted else Origin.implied
          let inner ← descend dotted change path begun []
          return Keyed.set entries key (.table begun inner)
      | some (.table origin inner) =>
          if origin = .inline || (dotted && origin = .header) then none
          else do
            let changed ← descend dotted change path origin inner
            return Keyed.set entries key (.table origin changed)
      | some (.tables (.table origin inner :: earlier)) => do
          let changed ← descend dotted change path origin inner
          return Keyed.set entries key (.tables (.table origin changed :: earlier))
      | some _ => none

/-- Add a value under a dotted key. -/
def addPair (origin : Origin) (entries : Keyed Value) (path : List String) (key : String)
    (value : Value) : Option (Keyed Value) :=
  descend true (fun found inner =>
    if decide (found = .dotted) == path.isEmpty || Keyed.contains inner key then none
    else some (Keyed.set inner key value)) path origin entries

/-- A document while it is read: the tables that are complete, and the one that lines are added
to, with its path. -/
structure Building where
  root : Keyed Value
  path : List String
  isArray : Bool
  entries : Keyed Value

namespace Building

def start : Building := ⟨[], [], false, []⟩

/-- Put the open table in its place. -/
def finish (building : Building) : Option (Keyed Value) :=
  match building.path.getLast? with
  | none => some building.entries
  | some key =>
      descend false (fun _ parent =>
        if building.isArray then
          match Keyed.get? parent key with
          | none => some (Keyed.set parent key (.tables [.table .header building.entries]))
          | some (.tables earlier) =>
              some (Keyed.set parent key (.tables (.table .header building.entries :: earlier)))
          | some _ => none
        else some (Keyed.set parent key (.table .header building.entries)))
        building.path.dropLast .header building.root

/-- The entries that are under a path already, if a header may open a table there. -/
def opened? (isArray : Bool) (key : String) (parent : Keyed Value) : Option (Keyed Value) :=
  match isArray, Keyed.get? parent key with
  | _, none => some []
  | true, some (.tables _) => some []
  | false, some (.table .implied entries) => some entries
  | _, some _ => none

/-- The entries under a path whose tables need not be there yet. -/
def lookUp (isArray : Bool) (key : String) :
    (path : List String) → Keyed Value → Option (Keyed Value)
  | [], parent => opened? isArray key parent
  | step :: path, parent =>
      match Keyed.get? parent step with
      | none => some []
      | some (.table origin inner) =>
          if origin = .inline then none else lookUp isArray key path inner
      | some (.tables (.table _ inner :: _)) => lookUp isArray key path inner
      | some _ => none

/-- A header: the open table is complete, and another one is opened. -/
def header (building : Building) (isArray : Bool) (path : List String) : Option Building := do
  let root ← building.finish
  let key ← path.getLast?
  let entries ← lookUp isArray key path.dropLast root
  return ⟨root, path, isArray, entries⟩

/-- A line with a key and a value. -/
def pair (building : Building) (path : List String) (key : String) (value : Value) :
    Option Building := do
  let entries ← addPair .header building.entries path key value
  return { building with entries := entries }

end Building

end Toml

end EntityMapping
