import EntityMapping.Keyed
import EntityMapping.Path

/-!
Files in directories. A path is followed segment by segment, so that it leads to a file only if
every directory that it goes through is there.
-/

set_option autoImplicit false
set_option relaxedAutoImplicit false

namespace EntityMapping

/-- What a file holds. -/
inductive FileContent where
  | text (value : String)
  /-- Bytes that are no text. -/
  | bytes

/-- Files and directories under their normalized paths. -/
structure FileTree where
  files : Keyed FileContent
  directories : List String

namespace FileTree

/-- No files. -/
def empty : FileTree := ⟨[], []⟩

/-- The normalized path of segments given innermost first. -/
def walkedPath (absolute : Bool) (walked : List Path.Segment) : String :=
  String.ofList (Path.render absolute walked.reverse)

/-- Walk down a path; every segment must be taken from a directory. The segments walked so far are
given innermost first. -/
def walk (tree : FileTree) (absolute : Bool) :
    (walked path : List Path.Segment) → Option (List Path.Segment)
  | walked, [] => some walked
  | walked, segment :: path =>
      if tree.directories.contains (walkedPath absolute walked) then
        walk tree absolute (Path.push absolute walked segment) path
      else none

/-- What the file at a path holds. -/
def file? (tree : FileTree) (path : String) : Option FileContent := do
  let absolute := Path.isAbsolute path.toList
  let walked ← tree.walk absolute [] (Text.split '/' path.toList)
  Keyed.get? tree.files (walkedPath absolute walked)

/-- The text of the file at a path. -/
def text? (tree : FileTree) (path : String) : Option String :=
  match tree.file? path with
  | some (.text value) => some value
  | _ => none

/-- The directories that a path goes through. -/
def passed (absolute : Bool) : (walked path : List Path.Segment) → List String
  | _, [] => []
  | walked, segment :: path =>
      walkedPath absolute walked :: passed absolute (Path.push absolute walked segment) path

/-- Put a file under a path. The directories on the way are made as needed. -/
def write (tree : FileTree) (path : String) (content : FileContent) : FileTree :=
  let absolute := Path.isAbsolute path.toList
  { files := Keyed.set tree.files (Path.normalized path) content
    directories := tree.directories ++ passed absolute [] (Path.namedSegments path.toList) }

end FileTree

end EntityMapping
