import EntityMapping.Yaml.Cursor

/-!
The text of YAML scalars: plain, between quotes, and in blocks. Lines are folded: a single line
break becomes a space, and of several line breaks the first one is dropped.
-/

set_option autoImplicit false
set_option relaxedAutoImplicit false

namespace EntityMapping

namespace Yaml

/-- A scalar that has been read, and the place after it. -/
structure ScalarText where
  text : List Char
  after : Cursor
  /-- Whether the place after it is the start of a line. -/
  endsLine : Bool

/-- Blanks and line breaks between two pieces of a scalar. -/
structure Gap where
  blanks : List Char
  firstBreak : List Char
  moreBreaks : List Char
  broken : Bool

/-- No gap. -/
def Gap.none : Gap := ⟨[], [], [], false⟩

/-- What a gap contributes to the text. -/
def Gap.folded (gap : Gap) : List Char :=
  if !gap.broken then gap.blanks
  else if gap.firstBreak.head? = some '\n' then
    if gap.moreBreaks.isEmpty then [' '] else gap.moreBreaks
  else gap.firstBreak ++ gap.moreBreaks

/-- Read blanks and line breaks. A tab left of the indentation after a line break is an error,
where an indentation is given. -/
def readGap (indent : Option Nat) : (fuel : Nat) → Gap → Cursor → Option (Gap × Cursor)
  | 0, gap, cursor => some (gap, cursor)
  | fuel + 1, gap, cursor =>
      if cursor.isBlankAt 0 then
        if gap.broken && indent.any (cursor.column < ·) && cursor.sees '\t' then none
        else
          let kept := if gap.broken then gap.blanks else gap.blanks ++ cursor.rest.take 1
          readGap indent fuel { gap with blanks := kept } (cursor.skip 1)
      else if cursor.isBreakAt 0 then
        let text := cursor.breakText
        let next : Gap :=
          if gap.broken then { gap with moreBreaks := gap.moreBreaks ++ text }
          else { gap with blanks := [], firstBreak := text, broken := true }
        readGap indent fuel next cursor.skipBreak
      else some (gap, cursor)

/-- Whether a plain scalar ends here: at a mapping value, and inside brackets at punctuation. -/
def endsPlain (inFlow : Bool) (cursor : Cursor) : Bool :=
  (cursor.sees ':' && cursor.isGapAt 1) ||
    (inFlow && (cursor.sees ',' || cursor.sees '[' || cursor.sees ']' || cursor.sees '\x7b' ||
      cursor.sees '\x7d'))

/-- Inside brackets a colon must not be followed by punctuation. -/
def misplacedColon (inFlow : Bool) (cursor : Cursor) : Bool :=
  inFlow && cursor.sees ':' &&
    (cursor.seesAt 1 ',' || cursor.seesAt 1 '?' || cursor.seesAt 1 '[' || cursor.seesAt 1 ']' ||
      cursor.seesAt 1 '\x7b' || cursor.seesAt 1 '\x7d')

/-- The characters of a plain scalar up to a gap, and whether the scalar ends there. -/
def readPlainPiece (inFlow : Bool) :
    (fuel : Nat) → (read : List Char) → Cursor → Option (List Char × Bool × Cursor)
  | 0, read, cursor => some (read.reverse, true, cursor)
  | fuel + 1, read, cursor =>
      match cursor.rest with
      | [] => some (read.reverse, true, cursor)
      | c :: _ =>
          if isBlank c || isBreak c then some (read.reverse, false, cursor)
          else if misplacedColon inFlow cursor then none
          else if endsPlain inFlow cursor then some (read.reverse, true, cursor)
          else readPlainPiece inFlow fuel (c :: read) (cursor.skip 1)

/-- The rest of a plain scalar, after a gap that counts only if a piece follows it. -/
def readPlainFrom (inFlow : Bool) (indent : Nat) :
    (fuel : Nat) → (text : List Char) → Gap → Cursor → Option ScalarText
  | 0, text, gap, cursor => some ⟨text, cursor, gap.broken⟩
  | fuel + 1, text, gap, cursor =>
      if cursor.seesDocumentMark || cursor.sees '#' then some ⟨text, cursor, gap.broken⟩
      else do
        let (piece, ended, after) ← readPlainPiece inFlow (cursor.rest.length + 1) [] cursor
        let grown := if piece.isEmpty then text else text ++ gap.folded ++ piece
        let pending := if piece.isEmpty then gap else Gap.none
        if ended then return ⟨grown, after, pending.broken⟩
        let (next, beyond) ← readGap (some indent) (after.rest.length + 1) pending after
        if !inFlow && beyond.column < indent then return ⟨grown, beyond, next.broken⟩
        readPlainFrom inFlow indent fuel grown next beyond

/-- A plain scalar. Outside brackets its lines must be indented. -/
def readPlain (inFlow : Bool) (indent : Nat) (cursor : Cursor) : Option ScalarText :=
  readPlainFrom inFlow indent (cursor.rest.length + 1) [] Gap.none cursor

/-- The value of a run of hexadecimal digits. -/
def hexNumber? (digits : List Char) : Option Nat :=
  digits.foldlM (fun value c =>
    if c.isDigit then some (value * 16 + (c.toNat - '0'.toNat))
    else if 'a' ≤ c && c ≤ 'f' then some (value * 16 + (c.toNat - 'a'.toNat + 10))
    else if 'A' ≤ c && c ≤ 'F' then some (value * 16 + (c.toNat - 'A'.toNat + 10))
    else none) 0

/-- The character with a code point, which must not be a surrogate. -/
def charOfCode? (code : Nat) : Option Char :=
  if (0xD800 ≤ code && code ≤ 0xDFFF) || 0x10FFFF < code then none else some (Char.ofNat code)

/-- The character of an escape written with one letter. -/
def escapedChar? (c : Char) : Option Char :=
  let code : Option Nat :=
    match c with
    | '0' => some 0x00
    | 'a' => some 0x07
    | 'b' => some 0x08
    | 't' => some 0x09
    | '\t' => some 0x09
    | 'n' => some 0x0A
    | 'v' => some 0x0B
    | 'f' => some 0x0C
    | 'r' => some 0x0D
    | 'e' => some 0x1B
    | ' ' => some 0x20
    | '"' => some 0x22
    | '/' => some 0x2F
    | '\\' => some 0x5C
    | 'N' => some 0x85
    | '_' => some 0xA0
    | 'L' => some 0x2028
    | 'P' => some 0x2029
    | _ => none
  code.map Char.ofNat

/-- How many hexadecimal digits an escape has. -/
def escapeWidth? (c : Char) : Option Nat :=
  match c with
  | 'x' => some 2
  | 'u' => some 4
  | 'U' => some 8
  | _ => none

/-- The character of an escape, after its backslash, and the place after it. -/
def readEscape (cursor : Cursor) : Option (Char × Cursor) := do
  let letter ← cursor.rest.head?
  match escapeWidth? letter with
  | some width =>
      let digits := (cursor.rest.drop 1).take width
      if digits.length ≠ width then none
      else return (← charOfCode? (← hexNumber? digits), cursor.skip (width + 1))
  | none => return (← escapedChar? letter, cursor.skip 1)

/-- How a piece of a quoted scalar ends. -/
inductive QuotedEnd where
  /-- At a blank or a line break. -/
  | gap
  /-- At the closing quote. -/
  | closed
  /-- At a line break that a backslash takes out. -/
  | joined

/-- The characters of a quoted scalar up to a gap or the closing quote. -/
def readQuotedPiece (single : Bool) :
    (fuel : Nat) → (read : List Char) → Cursor → Option (List Char × QuotedEnd × Cursor)
  | 0, _, _ => none
  | fuel + 1, read, cursor =>
      match cursor.rest with
      | [] => some (read.reverse, .gap, cursor)
      | c :: _ =>
          if isBlank c || isBreak c then some (read.reverse, .gap, cursor)
          else if single && c = '\'' && cursor.seesAt 1 '\'' then
            readQuotedPiece single fuel ('\'' :: read) (cursor.skip 2)
          else if c = (if single then '\'' else '"') then some (read.reverse, .closed, cursor)
          else if !single && c = '\\' then
            if cursor.isBreakAt 1 then some (read.reverse, .joined, (cursor.skip 1).skipBreak)
            else do
              let (char, after) ← readEscape (cursor.skip 1)
              readQuotedPiece single fuel (char :: read) after
          else readQuotedPiece single fuel (c :: read) (cursor.skip 1)

/-- The rest of a quoted scalar, after its text so far. -/
def readQuotedFrom (single : Bool) : (fuel : Nat) → (text : List Char) → Cursor → Option ScalarText
  | 0, _, _ => none
  | fuel + 1, text, cursor =>
      if cursor.seesDocumentMark || cursor.atEnd then none
      else do
        let (piece, ending, after) ← readQuotedPiece single (cursor.rest.length + 1) [] cursor
        let grown := text ++ piece
        match ending with
        | .closed => return ⟨grown, after.skip 1, false⟩
        | .gap =>
            let (gap, beyond) ← readGap none (after.rest.length + 1) Gap.none after
            readQuotedFrom single fuel (grown ++ gap.folded) beyond
        | .joined =>
            if after.sees (if single then '\'' else '"') then return ⟨grown, after.skip 1, false⟩
            let (gap, beyond) ←
              readGap none (after.rest.length + 1) { Gap.none with broken := true } after
            readQuotedFrom single fuel (grown ++ gap.folded) beyond

/-- A scalar in quotes, from its opening quote on. -/
def readQuoted (single : Bool) (cursor : Cursor) : Option ScalarText :=
  readQuotedFrom single (cursor.rest.length + 1) [] (cursor.skip 1)

/-- What becomes of the line breaks at the end of a block scalar. -/
inductive Chomping where
  | strip
  | clip
  | keep
  deriving DecidableEq

/-- The header of a block scalar: chomping, and how far the block is indented if that is given. -/
def readBlockHeader (cursor : Cursor) : Option (Chomping × Option Nat × Cursor) :=
  let chomping? (cursor : Cursor) : Option Chomping :=
    if cursor.sees '+' then some .keep else if cursor.sees '-' then some .strip else none
  let increment? (cursor : Cursor) : Option Nat :=
    (cursor.rest.head?.filter Char.isDigit).map fun c => c.toNat - '0'.toNat
  match chomping? cursor with
  | some chomping =>
      match increment? (cursor.skip 1) with
      | some 0 => none
      | some increment => some (chomping, some increment, cursor.skip 2)
      | none => some (chomping, none, cursor.skip 1)
  | none =>
      match increment? cursor with
      | some 0 => none
      | some increment =>
          match chomping? (cursor.skip 1) with
          | some chomping => some (chomping, some increment, cursor.skip 2)
          | none => some (.clip, some increment, cursor.skip 1)
      | none => some (.clip, none, cursor)

/-- Read empty lines and the indentation of the next line. Without a known indentation, the
deepest column reached is found. -/
def readBlockBreaks (indent : Nat) :
    (fuel : Nat) → (deepest : Nat) → (breaks : List Char) → Cursor →
      Option (Nat × List Char × Cursor)
  | 0, deepest, breaks, cursor => some (deepest, breaks, cursor)
  | fuel + 1, deepest, breaks, cursor =>
      let spaces := (cursor.span (· = ' ')).length
      let taken := if indent = 0 then spaces else min spaces (indent - cursor.column)
      let indented := cursor.skip taken
      let reached := max deepest indented.column
      if (indent = 0 || indented.column < indent) && indented.sees '\t' then none
      else if indented.isBreakAt 0 then
        readBlockBreaks indent fuel reached (breaks ++ indented.breakText) indented.skipBreak
      else some (reached, breaks, indented)

/-- The lines of a block scalar. The break before a line and the empty lines before it are kept
back until the line is there. -/
def readBlockLines (literal : Bool) (indent : Nat) :
    (fuel : Nat) → (text lineBreak emptyLines : List Char) → (afterBlank : Bool) → Cursor →
      Option (List Char × List Char × List Char × Cursor)
  | 0, text, lineBreak, emptyLines, _, cursor => some (text, lineBreak, emptyLines, cursor)
  | fuel + 1, text, lineBreak, emptyLines, afterBlank, cursor =>
      if cursor.column ≠ indent || cursor.atEnd then some (text, lineBreak, emptyLines, cursor)
      else do
        let blank := cursor.isBlankAt 0
        let joint :=
          if !literal && lineBreak.head? = some '\n' && !afterBlank && !blank then
            if emptyLines.isEmpty then [' '] else []
          else lineBreak
        let line := cursor.span fun c => !isBreak c
        let lineEnd := cursor.skipToLineEnd
        let (_, breaks, next) ←
          readBlockBreaks indent (lineEnd.rest.length + 1) 0 [] lineEnd.skipBreak
        readBlockLines literal indent fuel (text ++ joint ++ emptyLines ++ line)
          lineEnd.breakText breaks blank next

/-- A block scalar, from its indicator on, inside a block indented by `outer`. -/
def readBlock (literal : Bool) (outer : Option Nat) (cursor : Cursor) : Option ScalarText := do
  let (chomping, increment, header) ← readBlockHeader (cursor.skip 1)
  let blanks := header.skipSpan isBlank
  let lineEnd := if blanks.sees '#' then blanks.skipToLineEnd else blanks
  if !lineEnd.isLineEndAt 0 then none
  else
    let body := lineEnd.skipBreak
    let given := (increment.map fun count => outer.getD 0 + count).getD 0
    let (deepest, breaks, first) ← readBlockBreaks given (body.rest.length + 1) 0 [] body
    let least := match outer with
      | some column => column + 1
      | none => 0
    let indent := if given = 0 then max (max deepest least) 1 else given
    let (text, lineBreak, emptyLines, after) ←
      readBlockLines literal indent (first.rest.length + 1) [] [] breaks false first
    let ending := match chomping with
      | .strip => []
      | .clip => lineBreak
      | .keep => lineBreak ++ emptyLines
    return ⟨text ++ ending, after, true⟩

end Yaml

end EntityMapping
