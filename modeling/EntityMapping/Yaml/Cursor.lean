/-!
A place in YAML text: the characters that follow, and how many bytes and lines come before them,
and how many characters in their line.
-/

set_option autoImplicit false
set_option relaxedAutoImplicit false

namespace EntityMapping

namespace Yaml

/-- Space and tab. -/
def isBlank (c : Char) : Bool := c = ' ' || c = '\t'

/-- The characters that end a line: carriage return, line feed, next line, line separator and
paragraph separator. -/
def isBreak (c : Char) : Bool :=
  c = '\r' || c = '\n' || c.toNat = 0x85 || c.toNat = 0x2028 || c.toNat = 0x2029

/-- The mark that may stand before a line. -/
def byteOrderMark : Char := Char.ofNat 0xFEFF

/-- The characters of anchors and tag handles. -/
def isNameChar (c : Char) : Bool := c.isAlphanum || c = '_' || c = '-'

/-- The characters that may stand in YAML text. -/
def isPrintable (c : Char) : Bool :=
  let code := c.toNat
  code = 0x09 || code = 0x0A || code = 0x0D || (0x20 ≤ code && code ≤ 0x7E) || code = 0x85 ||
    (0xA0 ≤ code && code ≤ 0xD7FF) || (0xE000 ≤ code && code ≤ 0xFFFD) ||
    (0x10000 ≤ code && code ≤ 0x10FFFF)

/-- A place in a text. The index counts bytes, the column counts characters. -/
structure Cursor where
  rest : List Char
  index : Nat
  line : Nat
  column : Nat

namespace Cursor

/-- The start of a text. -/
def start (text : List Char) : Cursor := ⟨text, 0, 0, 0⟩

/-- The character at a distance. -/
def at? (cursor : Cursor) (distance : Nat) : Option Char := cursor.rest[distance]?

/-- Whether a given character follows. -/
def sees (cursor : Cursor) (c : Char) : Bool := cursor.rest.head? = some c

def seesAt (cursor : Cursor) (distance : Nat) (c : Char) : Bool := cursor.at? distance = some c

def atEnd (cursor : Cursor) : Bool := cursor.rest.isEmpty

def isBlankAt (cursor : Cursor) (distance : Nat) : Bool :=
  (cursor.at? distance).any isBlank

def isBreakAt (cursor : Cursor) (distance : Nat) : Bool :=
  (cursor.at? distance).any isBreak

/-- A line break or the end of the text. -/
def isLineEndAt (cursor : Cursor) (distance : Nat) : Bool :=
  (cursor.at? distance).all isBreak

/-- A blank, a line break or the end of the text. -/
def isGapAt (cursor : Cursor) (distance : Nat) : Bool :=
  (cursor.at? distance).all fun c => isBlank c || isBreak c

/-- Go on by characters of the same line. -/
def skip (cursor : Cursor) : (count : Nat) → Cursor
  | 0 => cursor
  | count + 1 =>
      match cursor.rest with
      | [] => cursor
      | c :: rest =>
          skip ⟨rest, cursor.index + c.utf8Size, cursor.line, cursor.column + 1⟩ count

/-- Go on past a line break, if one follows. -/
def skipBreak (cursor : Cursor) : Cursor :=
  let passed (count : Nat) : Cursor :=
    { cursor.skip count with line := cursor.line + 1, column := 0 }
  if cursor.sees '\r' && cursor.seesAt 1 '\n' then passed 2
  else if cursor.isBreakAt 0 then passed 1
  else cursor

/-- The text of the line break that follows: line and paragraph separators stand for themselves,
every other break is a line feed. -/
def breakText (cursor : Cursor) : List Char :=
  match cursor.rest.head? with
  | some c =>
      if c.toNat = 0x2028 || c.toNat = 0x2029 then [c]
      else if isBreak c then ['\n']
      else []
  | none => []

/-- The characters that follow as long as they are of a kind. -/
def span (cursor : Cursor) (kind : Char → Bool) : List Char := cursor.rest.takeWhile kind

/-- Go on past the characters of a kind, which must not end a line. -/
def skipSpan (cursor : Cursor) (kind : Char → Bool) : Cursor :=
  cursor.skip (cursor.span kind).length

/-- Go on to the end of the line. -/
def skipToLineEnd (cursor : Cursor) : Cursor := cursor.skipSpan fun c => !isBreak c

/-- A mark of three equal characters at the start of a line, followed by a gap. -/
def seesMark (cursor : Cursor) (c : Char) : Bool :=
  cursor.column = 0 && cursor.sees c && cursor.seesAt 1 c && cursor.seesAt 2 c && cursor.isGapAt 3

/-- The start or the end mark of a document. -/
def seesDocumentMark (cursor : Cursor) : Bool := cursor.seesMark '-' || cursor.seesMark '.'

end Cursor

end Yaml

end EntityMapping
