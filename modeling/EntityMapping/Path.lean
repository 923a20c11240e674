import EntityMapping.Text.Split

/-!
Paths with `/` between their segments. Normalization is lexical: empty segments and `.` are left
out, and `..` takes the segment before it away.
-/

set_option autoImplicit false
set_option relaxedAutoImplicit false

namespace EntityMapping

namespace Path

/-- A segment of a path. -/
abbrev Segment := List Char

/-- The segment for the same directory. -/
def here : Segment := ['.']

/-- The segment for the directory above. -/
def up : Segment := ['.', '.']

/-- Take one more segment. Those kept so far are given innermost first; an absolute path does not
climb above its root. -/
def push (absolute : Bool) (kept : List Segment) (segment : Segment) : List Segment :=
  if segment = [] || segment = here then kept
  else if segment = up then
    match kept with
    | last :: rest =>
        if last ≠ up then rest else if absolute then kept else up :: kept
    | [] => if absolute then [] else [up]
  else segment :: kept

/-- Whether a path starts at the root. -/
def isAbsolute (path : List Char) : Bool := path.head? = some '/'

/-- The segments that are left of a path. -/
def normalSegments (path : List Char) : List Segment :=
  ((Text.split '/' path).foldl (push (isAbsolute path)) []).reverse

/-- A path written from its segments. -/
def render (absolute : Bool) (segments : List Segment) : List Char :=
  if absolute then '/' :: Text.join '/' segments else Text.join '/' segments

/-- The path without empty segments and `.`, and with `..` at its beginning only. -/
def normalize (path : List Char) : List Char :=
  render (isAbsolute path) (normalSegments path)

/-- The segments of a path that name something. -/
def namedSegments (path : List Char) : List Segment :=
  (Text.split '/' path).filter fun segment => segment ≠ [] && segment ≠ here

/-- The directory that holds the last thing a path names. -/
def directory (path : List Char) : List Char :=
  render (isAbsolute path) (namedSegments path).dropLast

/-- A path taken from a directory, unless it is absolute. -/
def join (base path : List Char) : List Char :=
  if isAbsolute path || base = [] then path
  else if base.getLast? = some '/' then base ++ path
  else base ++ '/' :: path

/-- The text after the last dot of the last segment; a segment that begins with its only dot has
none. -/
def extension? (path : List Char) : Option (List Char) :=
  match (namedSegments path).getLast? with
  | none => none
  | some name =>
      if name = up then none
      else
        let after := name.reverse.takeWhile (· ≠ '.')
        if name.length ≤ after.length + 1 then none else some after.reverse

/-- The path of a text, normalized. -/
def normalized (path : String) : String := String.ofList (normalize path.toList)

end Path

end EntityMapping
