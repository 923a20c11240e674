import EntityMapping.Yaml.Cursor
import EntityMapping.Yaml.Token

/-!
Tags and directives of YAML text. A tag is written verbatim between angle brackets, or with a
handle that a directive may define. Percent escapes write single bytes, which need not be text.
-/

set_option autoImplicit false
set_option relaxedAutoImplicit false

namespace EntityMapping

namespace Yaml

/-- A tag written out in full, as bytes: escapes may write bytes that are no text. -/
structure Tag where
  bytes : List UInt8
  deriving DecidableEq

/-- The byte of the exclamation mark. -/
def markByte : UInt8 := 0x21

/-- The bytes of characters that all are ASCII characters. -/
def asciiBytes (text : List Char) : List UInt8 := text.map fun c => UInt8.ofNat c.toNat

namespace Tag

/-- The bytes before the first zero byte, which ends a tag. -/
def beforeZero (bytes : List UInt8) : List UInt8 := bytes.takeWhile (· ≠ 0)

/-- The tag that a handle and a suffix stand for. -/
def ofParts (beginning suffix : List UInt8) : Tag := ⟨beforeZero beginning ++ beforeZero suffix⟩

/-- What the tags of the core schema begin with. -/
def coreBeginning : List UInt8 := asciiBytes "tag:yaml.org,2002:".toList

/-- A tag of the core schema. -/
def core (name : String) : Tag := ⟨coreBeginning ++ asciiBytes name.toList⟩

/-- Whether a tag begins with an exclamation mark. -/
def isMarked (tag : Tag) : Bool := tag.bytes.head? = some markByte

/-- A local tag begins with an exclamation mark and is a text. -/
def isLocal (tag : Tag) : Bool :=
  tag.isMarked && (String.fromUTF8? ⟨tag.bytes.toArray⟩).isSome

end Tag

/-- The byte of a percent escape, written as two hexadecimal digits, and the rest. -/
def hexByte? (text : List Char) : Option (UInt8 × List Char) :=
  let digit? (c : Char) : Option Nat :=
    if c.isDigit then some (c.toNat - '0'.toNat)
    else if 'a' ≤ c && c ≤ 'f' then some (c.toNat - 'a'.toNat + 10)
    else if 'A' ≤ c && c ≤ 'F' then some (c.toNat - 'A'.toNat + 10)
    else none
  match text with
  | '%' :: high :: low :: rest => do
      return (UInt8.ofNat ((← digit? high) * 16 + (← digit? low)), rest)
  | _ => none

/-- How many bytes follow the first one in the encoding of a character. -/
def laterBytes? (first : UInt8) : Option Nat :=
  let code := first.toNat
  if code < 0x80 then some 0
  else if 0xC0 ≤ code && code < 0xE0 then some 1
  else if 0xE0 ≤ code && code < 0xF0 then some 2
  else if 0xF0 ≤ code && code < 0xF8 then some 3
  else none

/-- A given number of percent escapes whose bytes are not the first ones of characters. -/
def readLaterBytes : (count : Nat) → List Char → Option (List UInt8 × List Char)
  | 0, text => some ([], text)
  | count + 1, text => do
      let (byte, rest) ← hexByte? text
      if byte.toNat < 0x80 || 0xC0 ≤ byte.toNat then none
      else
        let (bytes, beyond) ← readLaterBytes count rest
        return (byte :: bytes, beyond)

/-- A character written as percent escapes of its bytes. Only the lead of every byte is checked. -/
def readEscapedBytes (text : List Char) : Option (List UInt8 × List Char) := do
  let (first, rest) ← hexByte? text
  let (later, beyond) ← readLaterBytes (← laterBytes? first) rest
  return (first :: later, beyond)

/-- The characters of tags. Verbatim tags may also hold commas and square brackets. -/
def isUriChar (verbatim : Bool) (c : Char) : Bool :=
  isNameChar c || ";/?:@&=+$.!~*'()%".toList.contains c || (verbatim && ",[]".toList.contains c)

/-- The bytes of a part of a tag and the place after it. -/
def readUriFrom (verbatim : Bool) :
    (fuel : Nat) → (read : List UInt8) → Cursor → Option (List UInt8 × Cursor)
  | 0, read, cursor => some (read, cursor)
  | fuel + 1, read, cursor =>
      match cursor.rest with
      | [] => some (read, cursor)
      | c :: _ =>
          if c = '%' then do
            let (bytes, beyond) ← readEscapedBytes cursor.rest
            readUriFrom verbatim fuel (read ++ bytes)
              (cursor.skip (cursor.rest.length - beyond.length))
          else if isUriChar verbatim c then
            readUriFrom verbatim fuel (read ++ asciiBytes [c]) (cursor.skip 1)
          else some (read, cursor)

def readUri (verbatim : Bool) (cursor : Cursor) : Option (List UInt8 × Cursor) :=
  readUriFrom verbatim (cursor.rest.length + 1) [] cursor

/-- A part of a tag that must not be empty. -/
def readSomeUri (verbatim : Bool) (cursor : Cursor) : Option (List UInt8 × Cursor) :=
  (readUri verbatim cursor).filter fun (bytes, _) => !bytes.isEmpty

/-- A tag handle: an exclamation mark, or a name between two of them. A mark and a name without
the second mark is the beginning of a tag. -/
def readHandle (cursor : Cursor) : Option (List Char × Cursor) :=
  if !cursor.sees '!' then none
  else
    let name := (cursor.skip 1).span isNameChar
    let after := cursor.skip (1 + name.length)
    if after.sees '!' then some ('!' :: name ++ ['!'], after.skip 1) else some ('!' :: name, after)

/-- Whether a handle has a mark at either end. -/
def isClosedHandle (handle : List Char) : Bool :=
  1 < handle.length && handle.getLast? = some '!'

/-- A suffix after the handle of an exclamation mark. Without a suffix, or with one that a zero
byte ends at once, the mark alone is a verbatim tag. -/
def markedTag (suffix : List UInt8) : WrittenTag :=
  if (Tag.beforeZero suffix).isEmpty then ⟨"", [markByte]⟩ else ⟨"!", suffix⟩

/-- A tag and the place after it. A gap must follow, or inside brackets a comma. -/
def readTag (inFlow : Bool) (cursor : Cursor) : Option (WrittenTag × Cursor) := do
  let (written, after) ←
    if cursor.seesAt 1 '<' then do
      let (suffix, after) ← readSomeUri true (cursor.skip 2)
      if after.sees '>' then some ((⟨"", suffix⟩ : WrittenTag), after.skip 1) else none
    else do
      let (handle, after) ← readHandle cursor
      if isClosedHandle handle then
        let (suffix, beyond) ← readSomeUri false after
        some (⟨String.ofList handle, suffix⟩, beyond)
      else
        let (suffix, beyond) ← readUri false after
        some (markedTag (asciiBytes (handle.drop 1) ++ suffix), beyond)
  if after.isGapAt 0 || (inFlow && after.sees ',') then return (written, after) else none

/-- A number of at most nine digits. -/
def readVersionNumber (cursor : Cursor) : Option (Nat × Cursor) :=
  let digits := cursor.span Char.isDigit
  if digits.isEmpty || 9 < digits.length then none
  else some (digits.foldl (fun value c => value * 10 + (c.toNat - '0'.toNat)) 0,
    cursor.skip digits.length)

/-- The numbers of a version directive. -/
def readVersion (cursor : Cursor) : Option (Token × Cursor) := do
  let (major, after) ← readVersionNumber (cursor.skipSpan isBlank)
  if !after.sees '.' then none
  else
    let (minor, beyond) ← readVersionNumber (after.skip 1)
    return (.version major minor, beyond)

/-- The handle of a tag directive and what it stands for. -/
def readTagHandle (cursor : Cursor) : Option (Token × Cursor) := do
  let (handle, after) ← readHandle (cursor.skipSpan isBlank)
  if !(isClosedHandle handle || handle = ['!']) || !after.isBlankAt 0 then none
  else
    let (beginning, beyond) ← readSomeUri true (after.skipSpan isBlank)
    if beyond.isGapAt 0 then return (.tagHandle (String.ofList handle) beginning, beyond)
    else none

/-- A directive, from its percent sign to the end of its line. -/
def readDirective (cursor : Cursor) : Option (Token × Cursor) := do
  let name := (cursor.skip 1).span isNameChar
  let after := cursor.skip (1 + name.length)
  if !after.isGapAt 0 then none
  else
    let (token, beyond) ←
      if name = "YAML".toList then readVersion after
      else if name = "TAG".toList then readTagHandle after
      else none
    let blanks := beyond.skipSpan isBlank
    let lineEnd := if blanks.sees '#' then blanks.skipToLineEnd else blanks
    if lineEnd.isLineEndAt 0 then return (token, lineEnd.skipBreak) else none

end Yaml

end EntityMapping
