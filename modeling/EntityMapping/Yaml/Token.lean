/-!
The tokens of YAML text. Indentation is made explicit: a block list or mapping has a token where
it starts and one where it ends.
-/

set_option autoImplicit false
set_option relaxedAutoImplicit false

namespace EntityMapping

namespace Yaml

/-- A tag as it is written: a handle and the bytes of a suffix. A verbatim tag has no handle. -/
structure WrittenTag where
  handle : String
  suffix : List UInt8
  deriving DecidableEq

inductive Token where
  /-- The version of the format that a document asks for. -/
  | version (major minor : Nat)
  /-- What a tag handle stands for: the bytes that its tags begin with. -/
  | tagHandle (handle : String) (beginning : List UInt8)
  | documentStart
  | documentEnd
  | blockListStart
  | blockMappingStart
  /-- The end of a block list or a block mapping. -/
  | blockEnd
  | flowListStart
  | flowListEnd
  | flowMappingStart
  | flowMappingEnd
  | blockEntry
  | flowEntry
  | key
  | value
  | alias (name : String)
  | anchor (name : String)
  | tag (written : WrittenTag)
  /-- A scalar, and whether it is written without quotes and block indicators. -/
  | scalar (text : String) (plain : Bool)
  deriving DecidableEq

end Yaml

end EntityMapping
