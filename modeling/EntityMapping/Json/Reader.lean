import EntityMapping.Json.Token

/-!
Reading JSON text. The tokens of a text are read by one pass that keeps the lists and objects
that are still open. A key that occurs again keeps its place and takes the new value.
-/

set_option autoImplicit false
set_option relaxedAutoImplicit false

namespace EntityMapping

namespace Json

/-- A list or an object that is still open. -/
inductive Frame where
  /-- A list with the items read so far, in reverse. -/
  | list (read : List Json)
  /-- An object with the fields read so far. -/
  | object (fields : Keyed Json)
  /-- An object that waits for the value of a key. -/
  | field (fields : Keyed Json) (key : String)

/-- What the next token may be. -/
inductive Expected where
  | value
  | itemOrClose
  | keyOrClose
  | key
  | colon (key : String)
  | commaOrClose
  | nothing

/-- The open lists and objects, innermost first, what may follow, and the value read. -/
structure ReadState where
  frames : List Frame
  expected : Expected
  root : Option Json

/-- Lists and objects may be nested this deep. -/
def maxDepth : Nat := 127

/-- Put a complete value where it belongs. -/
def ReadState.deliver (frames : List Frame) (value : Json) : Option ReadState :=
  match frames with
  | [] => some ⟨[], .nothing, some value⟩
  | .list read :: outer => some ⟨.list (value :: read) :: outer, .commaOrClose, none⟩
  | .field fields key :: outer =>
      some ⟨.object (Keyed.set fields key value) :: outer, .commaOrClose, none⟩
  | .object _ :: _ => none

/-- Open a list or an object. -/
def ReadState.enter (frames : List Frame) (frame : Frame) (expected : Expected) :
    Option ReadState :=
  if frames.length < maxDepth then some ⟨frame :: frames, expected, none⟩ else none

/-- A token where a value is expected. -/
def ReadState.value (frames : List Frame) : Token → Option ReadState
  | .openList => ReadState.enter frames (.list []) .itemOrClose
  | .openObject => ReadState.enter frames (.object []) .keyOrClose
  | .text value => ReadState.deliver frames (.str value)
  | .scalar value => ReadState.deliver frames value
  | _ => none

/-- A closing token. -/
def ReadState.close : List Frame → Token → Option ReadState
  | .list read :: outer, .closeList => ReadState.deliver outer (.arr read.reverse)
  | .object fields :: outer, .closeObject => ReadState.deliver outer (.obj fields)
  | _, _ => none

/-- One token of the pass. -/
def ReadState.step (state : ReadState) (token : Token) : Option ReadState :=
  match state.expected, token with
  | .value, token => ReadState.value state.frames token
  | .itemOrClose, .closeList => ReadState.close state.frames .closeList
  | .itemOrClose, token => ReadState.value state.frames token
  | .keyOrClose, .closeObject => ReadState.close state.frames .closeObject
  | .keyOrClose, .text key => some ⟨state.frames, .colon key, none⟩
  | .key, .text key => some ⟨state.frames, .colon key, none⟩
  | .colon key, .colon =>
      match state.frames with
      | .object fields :: outer => some ⟨.field fields key :: outer, .value, none⟩
      | _ => none
  | .commaOrClose, .comma =>
      match state.frames with
      | .list _ :: _ => some ⟨state.frames, .value, none⟩
      | _ => some ⟨state.frames, .key, none⟩
  | .commaOrClose, token => ReadState.close state.frames token
  | _, _ => none

/-- Run the pass over the rest of the tokens. -/
def ReadState.run : ReadState → List Token → Option ReadState
  | state, [] => some state
  | state, token :: rest => (state.step token).bind fun next => ReadState.run next rest

/-- The value that a text holds; none if the text is not JSON. -/
def read? (text : String) : Option Json := do
  let state ← ReadState.run ⟨[], .value, none⟩ (← tokens? text.toList)
  state.root

end Json

end EntityMapping
