import EntityMapping.Keyed
import EntityMapping.Yaml.Tag

/-!
The nodes of a YAML document, made from its tokens. An alias points at a node by the number of
its anchor, so that a node may be used in many places and even inside itself.
-/

set_option autoImplicit false
set_option relaxedAutoImplicit false

namespace EntityMapping

namespace Yaml

/-- A node of a document. Tags are written out in full. -/
inductive Node where
  | scalar (text : String) (plain : Bool) (tag : Option Tag)
  | list (items : List Node) (tag : Option Tag)
  | mapping (pairs : List (Node × Node)) (tag : Option Tag)
  | alias (anchor : Nat)

/-- A node that is not written. -/
def Node.absent : Node := .scalar "" true none

/-- A node that has an anchor, with the anchor's number and how many anchors come before it. -/
structure AnchoredNode where
  number : Nat
  place : Nat
  node : Node

/-- A document: its root, the nodes that have anchors, and how many marks and scalars it has. A
list or a mapping counts twice, for its start and its end. -/
structure Document where
  root : Node
  anchored : List AnchoredNode
  size : Nat

/-- Where the pass over the tokens stands. -/
structure Parsing where
  tokens : List Token
  /-- What the tags of a handle begin with. -/
  handles : Keyed (List UInt8)
  /-- The numbers of the anchors by name; a name may be used again for another node. -/
  anchors : Keyed Nat
  anchorCount : Nat
  anchored : List AnchoredNode
  size : Nat

namespace Parsing

def drop (state : Parsing) (count : Nat) : Parsing :=
  { state with tokens := state.tokens.drop count }

def peek? (state : Parsing) : Option Token := state.tokens.head?

/-- Whether one of some tokens follows; the end of the document counts as one if `orEnd`. -/
def seesAny (state : Parsing) (tokens : List Token) (orEnd : Bool) : Bool :=
  match state.peek? with
  | some token => tokens.contains token
  | none => orEnd

def grow (state : Parsing) (count : Nat) : Parsing := { state with size := state.size + count }

/-- The anchor and the tag before a node, in either order. -/
def properties (state : Parsing) : Option String × Option WrittenTag × Parsing :=
  match state.tokens with
  | .anchor name :: .tag written :: _ => (some name, some written, state.drop 2)
  | .tag written :: .anchor name :: _ => (some name, some written, state.drop 2)
  | .anchor name :: _ => (some name, none, state.drop 1)
  | .tag written :: _ => (none, some written, state.drop 1)
  | _ => (none, none, state)

/-- A tag written out; none if its handle is not defined. -/
def fullTag? (state : Parsing) (written : WrittenTag) : Option Tag :=
  if written.handle = "" then some (Tag.ofParts [] written.suffix)
  else (Keyed.get? state.handles written.handle).map (Tag.ofParts · written.suffix)

/-- A new anchor, which is given its node later. Its number is how many names there are before
it, so a name that is used again shares its number with the next new name. -/
def openAnchor (state : Parsing) (name : Option String) : Option (Node → AnchoredNode) × Parsing :=
  match name with
  | none => (none, state)
  | some name =>
      let number := List.length state.anchors
      (some (AnchoredNode.mk number state.anchorCount),
        { state with
          anchors := Keyed.set state.anchors name number
          anchorCount := state.anchorCount + 1 })

/-- Keep a node that has an anchor. -/
def closeAnchor (state : Parsing) (anchor : Option (Node → AnchoredNode)) (node : Node) :
    Node × Parsing :=
  match anchor with
  | none => (node, state)
  | some anchored => (node, { state with anchored := anchored node :: state.anchored })

mutual

/-- A node. Inside brackets it is not a block; the value of a mapping may be a list whose entries
are not indented. -/
def node : (fuel : Nat) → (block indentless : Bool) → Parsing → Option (Node × Parsing)
  | 0, _, _, _ => none
  | fuel + 1, block, indentless, state =>
      match state.tokens with
      | .alias name :: _ => do
          let number ← Keyed.get? state.anchors name
          return (.alias number, (state.drop 1).grow 1)
      | _ => do
          let (name, written, after) := state.properties
          let tag ← match written with
            | none => some none
            | some written => (after.fullTag? written).map some
          let (anchor, opened) := after.openAnchor name
          let (content, rest) ←
            content fuel block indentless (name.isSome || written.isSome) tag opened
          return rest.closeAnchor anchor content

/-- The content of a node, after its anchor and its tag. -/
def content : (fuel : Nat) → (block indentless marked : Bool) → (tag : Option Tag) → Parsing →
    Option (Node × Parsing)
  | 0, _, _, _, _, _ => none
  | fuel + 1, block, indentless, marked, tag, state =>
      match state.peek? with
      | some (.scalar text plain) => some (.scalar text plain tag, (state.drop 1).grow 1)
      | some .flowListStart => do
          let (items, rest) ← flowItems fuel true [] (state.drop 1)
          return (.list items tag, rest.grow 2)
      | some .flowMappingStart => do
          let (pairs, rest) ← flowPairs fuel true [] (state.drop 1)
          return (.mapping pairs tag, rest.grow 2)
      | some .blockListStart =>
          if block then do
            let (items, rest) ← blockItems fuel [] (state.drop 1)
            return (.list items tag, rest.grow 2)
          else unwritten marked tag state
      | some .blockMappingStart =>
          if block then do
            let (pairs, rest) ← blockPairs fuel [] (state.drop 1)
            return (.mapping pairs tag, rest.grow 2)
          else unwritten marked tag state
      | some .blockEntry =>
          if indentless then do
            let (items, rest) ← indentlessItems fuel [] state
            return (.list items tag, rest.grow 2)
          else unwritten marked tag state
      | _ => unwritten marked tag state

/-- Only an anchor or a tag stands for a node without content. -/
def unwritten (marked : Bool) (tag : Option Tag) (state : Parsing) : Option (Node × Parsing) :=
  if marked then some (.scalar "" true tag, state.grow 1) else none

/-- A node, or none where one of some tokens follows. -/
def nodeUnless : (fuel : Nat) → (closing : List Token) → (block indentless : Bool) → Parsing →
    Option (Node × Parsing)
  | 0, _, _, _, _ => none
  | fuel + 1, closing, block, indentless, state =>
      if state.seesAny closing false then some (Node.absent, state.grow 1)
      else node fuel block indentless state

/-- The entries of a block list. -/
def blockItems : (fuel : Nat) → (read : List Node) → Parsing → Option (List Node × Parsing)
  | 0, _, _ => none
  | fuel + 1, read, state =>
      match state.peek? with
      | some .blockEntry => do
          let (item, rest) ← nodeUnless fuel [.blockEntry, .blockEnd] true false (state.drop 1)
          blockItems fuel (item :: read) rest
      | some .blockEnd => some (read.reverse, state.drop 1)
      | _ => none

/-- The entries of a list that is indented like the mapping around it. -/
def indentlessItems : (fuel : Nat) → (read : List Node) → Parsing → Option (List Node × Parsing)
  | 0, _, _ => none
  | fuel + 1, read, state =>
      match state.peek? with
      | some .blockEntry => do
          let (item, rest) ←
            nodeUnless fuel [.blockEntry, .key, .value, .blockEnd] true false (state.drop 1)
          indentlessItems fuel (item :: read) rest
      | _ => some (read.reverse, state)

/-- The pairs of a block mapping. Every pair has a key mark, a written one or one of its own. -/
def blockPairs : (fuel : Nat) → (read : List (Node × Node)) → Parsing →
    Option (List (Node × Node) × Parsing)
  | 0, _, _ => none
  | fuel + 1, read, state =>
      match state.peek? with
      | some .key => do
          let (key, afterKey) ← nodeUnless fuel [.key, .value, .blockEnd] true true (state.drop 1)
          let (value, rest) ← pairValue fuel [.key, .value, .blockEnd] true afterKey
          blockPairs fuel ((key, value) :: read) rest
      | some .blockEnd => some (read.reverse, state.drop 1)
      | _ => none

/-- The value of a pair; it may be left out. -/
def pairValue : (fuel : Nat) → (closing : List Token) → (block : Bool) → Parsing →
    Option (Node × Parsing)
  | 0, _, _, _ => none
  | fuel + 1, closing, block, state =>
      match state.peek? with
      | some .value => nodeUnless fuel closing block block (state.drop 1)
      | _ => some (Node.absent, state.grow 1)

/-- The items of a list in brackets. A pair stands for a mapping of its own. -/
def flowItems : (fuel : Nat) → (first : Bool) → (read : List Node) → Parsing →
    Option (List Node × Parsing)
  | 0, _, _, _ => none
  | fuel + 1, first, read, state =>
      match state.peek? with
      | some .flowListEnd => some (read.reverse, state.drop 1)
      | _ => do
          let entry ←
            if first then some state
            else if state.peek? = some .flowEntry then some (state.drop 1)
            else none
          match entry.peek? with
          | some .flowListEnd => return (read.reverse, entry.drop 1)
          | some .key =>
              let (pair, rest) ← flowPair fuel (entry.drop 1)
              flowItems fuel false (.mapping [pair] none :: read) (rest.grow 2)
          | _ =>
              let (item, rest) ← node fuel false false entry
              flowItems fuel false (item :: read) rest

/-- A pair among the items of a list in brackets, after its key mark. A key that is left out
takes the next token with it. -/
def flowPair : (fuel : Nat) → Parsing → Option ((Node × Node) × Parsing)
  | 0, _ => none
  | fuel + 1, state => do
      let (key, afterKey) ←
        if state.seesAny [.value, .flowEntry, .flowListEnd] false then
          some (Node.absent, (state.drop 1).grow 1)
        else node fuel false false state
      let (value, rest) ← pairValue fuel [.flowEntry, .flowListEnd] false afterKey
      return ((key, value), rest)

/-- The pairs of a mapping in braces. A key may stand alone. -/
def flowPairs : (fuel : Nat) → (first : Bool) → (read : List (Node × Node)) → Parsing →
    Option (List (Node × Node) × Parsing)
  | 0, _, _, _ => none
  | fuel + 1, first, read, state =>
      match state.peek? with
      | some .flowMappingEnd => some (read.reverse, state.drop 1)
      | _ => do
          let entry ←
            if first then some state
            else if state.peek? = some .flowEntry then some (state.drop 1)
            else none
          match entry.peek? with
          | some .flowMappingEnd => return (read.reverse, entry.drop 1)
          | some .key =>
              let (key, afterKey) ←
                nodeUnless fuel [.value, .flowEntry, .flowMappingEnd] false false (entry.drop 1)
              let (value, rest) ← pairValue fuel [.flowEntry, .flowMappingEnd] false afterKey
              flowPairs fuel false ((key, value) :: read) rest
          | _ =>
              let (key, rest) ← node fuel false false entry
              flowPairs fuel false ((key, Node.absent) :: read) (rest.grow 1)

end

/-- The directives before a document: at most one version, each handle at most once. -/
def directives : List Token → (version : Bool) → Keyed (List UInt8) →
    Option (List Token × Keyed (List UInt8))
  | .version major minor :: rest, seen, handles =>
      if seen || major ≠ 1 || !(minor = 1 || minor = 2) then none
      else directives rest true handles
  | .tagHandle handle beginning :: rest, seen, handles =>
      if Keyed.contains handles handle then none
      else directives rest seen (Keyed.set handles handle beginning)
  | tokens, _, handles => some (tokens, handles)

/-- The handles that need no directive. -/
def withUsualHandles (handles : Keyed (List UInt8)) : Keyed (List UInt8) :=
  let add (handles : Keyed (List UInt8)) (handle : String) (beginning : List UInt8) :=
    if Keyed.contains handles handle then handles else Keyed.set handles handle beginning
  add (add handles "!" [markByte]) "!!" Tag.coreBeginning

def isDirective : Token → Bool
  | .version _ _ => true
  | .tagHandle _ _ => true
  | _ => false

/-- The pass at the content of a document. -/
def ofTokens (tokens : List Token) (handles : Keyed (List UInt8)) : Parsing :=
  { tokens := tokens
    handles := withUsualHandles handles
    anchors := []
    anchorCount := 0
    anchored := []
    size := 0 }

/-- The content of a document with its mark. It may be left out. -/
def markedRoot (fuel : Nat) (state : Parsing) : Option (Node × Parsing) :=
  match state.peek? with
  | none => some (Node.absent, state.grow 1)
  | some token =>
      if token = .documentStart || token = .documentEnd || isDirective token then
        some (Node.absent, state.grow 1)
      else node fuel true false state

end Parsing

/-- The only document of a text; without one, its root is not written. Further documents are an
error. -/
def Document.ofTokens? (tokens : List Token) : Option Document := do
  let fuel := 4 * tokens.length + 8
  let (root, rest) ←
    match tokens with
    | [] => some (Node.absent, Parsing.ofTokens [] [])
    | token :: _ =>
        if token = .documentStart || Parsing.isDirective token then do
          let (marked, handles) ← Parsing.directives tokens false []
          match marked with
          | .documentStart :: body => Parsing.markedRoot fuel (Parsing.ofTokens body handles)
          | _ => none
        else Parsing.node fuel true false (Parsing.ofTokens tokens [])
  if rest.tokens.all (· = .documentEnd) then
    return ⟨root, rest.anchored, max 1 rest.size⟩
  else none

end Yaml

end EntityMapping
