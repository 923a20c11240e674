import EntityMapping.Text.Split
import EntityMapping.Text.WordCharacter

/-!
Texts made of words: a table and a column with a dot between them, import paths with at least one
dot, and names between double low lines.
-/

set_option autoImplicit false
set_option relaxedAutoImplicit false

namespace EntityMapping

namespace Text

/-- One word character or more. -/
def isWord (text : List Char) : Bool := !text.isEmpty && text.all isWordCharacter

/-- Two words with a dot between them. -/
def isTableColumn (text : String) : Bool :=
  let words := split '.' text.toList
  words.length = 2 && words.all isWord

/-- Two words or more with a dot between each two. -/
def isImportPath (text : String) : Bool :=
  let words := split '.' text.toList
  2 ≤ words.length && words.all isWord

/-- A word with two low lines before it and two after it. -/
def isDunder (text : String) : Bool :=
  match text.toList with
  | '_' :: '_' :: rest =>
      match rest.reverse with
      | '_' :: '_' :: inner => isWord inner
      | _ => false
  | _ => false

end Text

end EntityMapping
