import EntityMapping.Schema.Registry

/-!
References between schemas. A local reference names an entity of the registry; a remote one names
a document and a pointer into it. A schema taken from another document has its references
relocated, so that they mean the same from the place of the registry.
-/

set_option autoImplicit false
set_option relaxedAutoImplicit false

namespace EntityMapping

/-- What a reference points at. -/
inductive Reference where
  /-- An entity of the registry. -/
  | entity (name : String)
  /-- A schema in another document, under a pointer of at least one segment. -/
  | remote (document : String) (pointer : List String)
  deriving DecidableEq, Repr

namespace Reference

/-- Put one character for every pair of two given ones, from left to right. -/
def replacePair (first second substitute : Char) : List Char → List Char
  | c :: d :: rest =>
      if c = first && d = second then substitute :: replacePair first second substitute rest
      else c :: replacePair first second substitute (d :: rest)
  | rest => rest

/-- A segment of a pointer with its escapes decoded. -/
def decodeSegment (segment : List Char) : List Char :=
  replacePair '~' '0' '~' (replacePair '~' '1' '/' segment)

/-- The segments of a pointer, which begins with a slash and has no empty segment. -/
def pointerSegments (reference : String) (pointer : List Char) :
    Except SchemaError (List (List Char)) :=
  match pointer with
  | '/' :: path =>
      let segments := (Text.split '/' path).map decodeSegment
      if segments.any List.isEmpty then .error (.notFound (.emptySegment reference))
      else .ok segments
  | _ => .error (.notFound (.noPointer reference))

/-- Whether a document is named by a web address. -/
def isAddress (document : List Char) : Bool :=
  Text.beginsWith document "http://" || Text.beginsWith document "https://"

/-- The entity that a pointer within the same document names. -/
def ofLocalSegments (reference : String) : List (List Char) → Except SchemaError Reference
  | [name] => .ok (.entity (String.ofList name))
  | [components, schemas, name] =>
      if components = "components".toList && schemas = "schemas".toList then
        .ok (.entity (String.ofList name))
      else .error (.notFound (.notLocal reference))
  | _ => .error (.notFound (.notLocal reference))

/-- Read a reference. -/
def parse (reference : String) : Except SchemaError Reference :=
  match reference.toList with
  | '#' :: pointer => do ofLocalSegments reference (← pointerSegments reference pointer)
  | text =>
      match Text.splitOnce? '#' text with
      | none => .error (.notFound (.noFragment reference))
      | some (document, pointer) =>
          if isAddress document then .error (.notImplemented (.remoteAddress reference))
          else
            let normal := Path.normalize document
            if normal = [] || normal = Path.here then .error (.notFound (.noDocument reference))
            else do
              let segments ← pointerSegments reference pointer
              return .remote (String.ofList normal) (segments.map String.ofList)

/-- The name of what a reference points at. -/
def name : Reference → String
  | .entity name => name
  | .remote _ pointer => pointer.getLast?.getD ""

/-- The text by which a chain of references recognizes a target. -/
def key : Reference → String
  | .entity name => name
  | .remote document pointer => document ++ "#/" ++ String.intercalate "/" pointer

/-- The part of a path before its last slash. -/
def directoryOf (document : List Char) : List Char :=
  match document.reverse.dropWhile (· ≠ '/') with
  | [] => []
  | _ :: before => before.reverse

/-- A reference found in a document, as it reads from where the document is named. -/
def relocateText (context reference : String) : String :=
  let text := reference.toList
  if text.head? = some '#' then context ++ reference
  else if isAddress text then reference
  else
    let (document, pointer) := (Text.splitOnce? '#' text).getD (text, [])
    let directory := directoryOf context.toList
    let placed :=
      if directory = [] || Path.isAbsolute document then document
      else directory ++ '/' :: document
    String.ofList (Path.normalize placed ++ '#' :: pointer)

mutual

/-- A value from a document with every reference in it relocated. -/
def relocate (context : String) : Json → Json
  | .obj fields => .obj (relocateFields context fields)
  | .arr items => .arr (relocateItems context items)
  | other => other

def relocateItems (context : String) : List Json → List Json
  | [] => []
  | item :: rest => relocate context item :: relocateItems context rest

def relocateFields (context : String) : List (String × Json) → List (String × Json)
  | [] => []
  | (key, value) :: rest =>
      (key, relocateField context key value) :: relocateFields context rest

/-- A field that holds a reference as a text is relocated; every other value is gone through. -/
def relocateField (context key : String) : Json → Json
  | .str reference =>
      if key = "$ref" then .str (relocateText context reference) else .str reference
  | .obj fields => .obj (relocateFields context fields)
  | .arr items => .arr (relocateItems context items)
  | other => other

end

end Reference

namespace Registry

/-- The normalized path of another document. -/
def documentPath (place document : String) : String :=
  String.ofList (Path.normalize (Path.join (Path.directory place.toList) document.toList))

/-- What a pointer leads to in a document. -/
def descend (reference document : String) : (pointer : List String) → Json →
    Except SchemaError Json
  | [], value => .ok value
  | segment :: rest, value =>
      match value.get? segment with
      | some next => descend reference document rest next
      | none => .error (.notFound (.missingSegment reference segment document))

/-- The name and the schema of what a reference, read before, points at. -/
def target (registry : Registry) (reference : String) :
    Reference → Except SchemaError (String × Json)
  | .entity name =>
      match registry.get? name with
      | some schema => .ok (name, schema)
      | none => .error (.notFound (.missingEntity reference))
  | .remote document pointer =>
      match registry.place with
      | none => .error (.notFound (.unknownPlace reference))
      | some place => do
          let path := documentPath place document
          let root ← (registry.documents.find path).mapError SchemaError.notFound
          let schema ← descend reference document pointer (.obj root)
          return (pointer.getLast?.getD "", Reference.relocate document schema)

/-- The name and the schema of what a reference points at. -/
def lookUp (registry : Registry) (reference : String) : Except SchemaError (String × Json) := do
  registry.target reference (← Reference.parse reference)

/-- Where a reference leads on a chain of references: the name and the schema of its target, and
the chain with the target on it. -/
structure Arrival where
  name : String
  schema : Json
  visited : List String

/-- Follow a reference, unless its target is on the chain already. -/
def arrive (registry : Registry) (visited : List String) (reference : String)
    (parsed : Reference) : Except SchemaError Arrival :=
  if visited.contains parsed.key then
    .error (.malformedSchema (.circular (visited ++ [parsed.key])))
  else do
    let (name, schema) ← registry.target reference parsed
    return ⟨name, schema, visited ++ [parsed.key]⟩

/-- How many references a chain can have. A chain within the registry has every entity once at
most. One through documents has every target of a reference in them once at most for every name of
a document, and a document has one name for every directory that a path can climb to from the
place of the registry, as long as it does not climb above the root directory. -/
def chainLimit (registry : Registry) : Nat :=
  let climbs := match registry.place with
    | some place => (Path.namedSegments place.toList).length
    | none => 0
  let places := registry.documents.size + 1
  registry.entries.length + (climbs + 2) * (places * places)

end Registry

end EntityMapping
