import EntityMapping.Yaml.CoreSchema
import EntityMapping.Yaml.Lexing
import EntityMapping.Yaml.Node

/-!
Reading YAML text as a JSON value. Keys are texts whatever they look like, aliases stand for the
nodes they point at, and a key that occurs again keeps its place and takes the new value.
-/

set_option autoImplicit false
set_option relaxedAutoImplicit false

namespace EntityMapping

namespace Yaml

/-- Lists and mappings may be nested this deep, nodes reached through aliases included. -/
def maxDepth : Nat := 128

/-- For every mark and scalar of a document, aliases may be followed this often. -/
def maxJumps : Nat := 100

/-- The one of two anchored nodes that comes later in the document. -/
def AnchoredNode.later (first : Option AnchoredNode) (second : AnchoredNode) : AnchoredNode :=
  match first with
  | some other => if second.place < other.place then other else second
  | none => second

/-- The node that an alias stands for: the last one whose anchor has the number. -/
def Document.anchored? (document : Document) (number : Nat) : Option Node :=
  let numbered := document.anchored.filter (·.number = number)
  (numbered.foldl (fun last node => some (AnchoredNode.later last node)) none).map (·.node)

/-- The node itself, or the one that it points at, and how many aliases may still be followed. -/
def Document.follow? (document : Document) (jumps : Nat) : Node → Option (Node × Nat)
  | .alias number =>
      match jumps with
      | 0 => none
      | left + 1 => (document.anchored? number).map fun target => (target, left)
  | node => some (node, jumps)

/-- The text of a key. -/
def Document.key? (document : Document) (jumps : Nat) (node : Node) : Option (String × Nat) := do
  let (target, left) ← document.follow? jumps node
  match target with
  | .scalar text _ _ => return (text, left)
  | _ => none

/-- The value of a node, and how many aliases may still be followed. -/
def Document.value? (document : Document) : (depth jumps : Nat) → Node → Option (Json × Nat)
  | 0, jumps, node => do
      match ← document.follow? jumps node with
      | (.scalar text plain tag, left) => return (← scalarValue? text plain tag, left)
      | _ => none
  | depth + 1, jumps, node => do
      match ← document.follow? jumps node with
      | (.scalar text plain tag, left) => return (← scalarValue? text plain tag, left)
      | (.list items tag, left) =>
          if tag.any Tag.isLocal then none
          else
            let (values, rest) ← items.foldlM (fun (read, jumps) item => do
              let (value, rest) ← document.value? depth jumps item
              return (value :: read, rest)) ([], left)
            return (.arr values.reverse, rest)
      | (.mapping pairs tag, left) =>
          if tag.any Tag.isLocal then none
          else
            let (fields, rest) ← pairs.foldlM (fun (fields, jumps) (keyNode, valueNode) => do
              let (key, afterKey) ← document.key? jumps keyNode
              let (value, rest) ← document.value? depth afterKey valueNode
              return (Keyed.set fields key value, rest)) (([] : Keyed Json), left)
            return (.obj fields, rest)
      | (.alias _, _) => none

/-- The value that a text holds; none if the text is not YAML or its value is not JSON. -/
def read? (text : String) : Option Json := do
  let document ← Document.ofTokens? (← tokens? text.toList)
  let (value, _) ← document.value? maxDepth (document.size * maxJumps) document.root
  return value

end Yaml

end EntityMapping
