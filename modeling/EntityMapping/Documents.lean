import EntityMapping.FileTree
import EntityMapping.Json.Reader
import EntityMapping.SchemaError
import EntityMapping.Yaml.Reader

/-!
The documents that schemas are read from. A document is a JSON or a YAML file with an object at
its root. A document that references led to is kept: references find it as it was read first, even
if its file changes.
-/

set_option autoImplicit false
set_option relaxedAutoImplicit false

namespace EntityMapping

/-- What reading a document at a path gives. -/
abbrev ReadOutcome := Except NotFoundCause (Keyed Json)

namespace FileTree

/-- The value of a text; the path says how to read it and is named in errors. -/
def valueOf (path text : String) : Except NotFoundCause Json :=
  let extension := (Path.extension? path.toList).map fun chars =>
    String.ofList (chars.map Char.toLower)
  if extension = some "json" then
    match Json.read? text with
    | some value => .ok value
    | none => .error (.invalidJson path)
  else if extension = some "yaml" || extension = some "yml" then
    match Yaml.read? text with
    | some value => .ok value
    | none => .error (.invalidYaml path)
  else .error (.unknownFormat path)

/-- Read the document at a path. -/
def document (tree : FileTree) (path : String) : ReadOutcome :=
  match tree.text? path with
  | none => .error (.unreadable path)
  | some text => do
      match ← valueOf path text with
      | .obj fields => return fields
      | _ => .error (.rootNotObject path)

end FileTree

/-- What references find at a path. -/
structure Finding where
  outcome : ReadOutcome
  /-- Whether references led there before; the outcome does not change any more. -/
  kept : Bool

/-- Files, and what references find at normalized paths. -/
structure Documents where
  tree : FileTree
  findings : Keyed Finding

namespace Documents

/-- No files. -/
def empty : Documents := ⟨FileTree.empty, []⟩

/-- The document that a reference finds at a normalized path. -/
def find (documents : Documents) (path : String) : ReadOutcome :=
  match Keyed.get? documents.findings path with
  | some finding => finding.outcome
  | none => .error (.unreadable path)

/-- Put a file under a path. References find it there, unless they led there before. -/
def write (documents : Documents) (path : String) (content : FileContent) : Documents :=
  let tree := documents.tree.write path content
  let normal := Path.normalized path
  let finding : Finding := ⟨tree.document normal, false⟩
  let kept := (Keyed.get? documents.findings normal).any (·.kept)
  { tree := tree
    findings :=
      if kept then documents.findings else Keyed.set documents.findings normal finding }

/-- The documents without the one that references find at a path. -/
def withholding (documents : Documents) (path : String) : Documents :=
  { documents with
    findings := Keyed.set documents.findings path ⟨.error (.unreadable path), false⟩ }

/-- Whether a computation fails for want of the document at a path. -/
def needs {α : Type} (query : Documents → Except SchemaError α) (documents : Documents)
    (path : String) : Bool :=
  match query (documents.withholding path) with
  | .ok _ => false
  | .error error =>
      match error.root with
      | .notFound (.unreadable missing) => missing = path
      | _ => false

/-- Keep the documents that a computation reads through references. It reads a document that is
there exactly if it fails without it, since a document that cannot be read ends it. -/
def keepReads {α : Type} (query : Documents → Except SchemaError α) (documents : Documents) :
    Documents :=
  { documents with
    findings := documents.findings.map fun (path, finding) =>
      if finding.kept then (path, finding)
      else match finding.outcome with
        | .ok _ => (path, { finding with kept := needs query documents path })
        | .error _ => (path, finding) }

/-- How many values all documents consist of, one more for every document. -/
def size (documents : Documents) : Nat :=
  documents.findings.foldl (fun total (_, finding) =>
    match finding.outcome with
    | .ok fields => total + 1 + (Json.obj fields).size
    | .error _ => total + 1) 0

end Documents

end EntityMapping
