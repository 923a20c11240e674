import EntityMapping.Yaml.ScalarText
import EntityMapping.Yaml.Tag

/-!
Cutting YAML text into tokens. Columns of open blocks are kept on a stack. What could be the key
of a mapping is remembered until a colon shows that it is one; then the tokens that start the
mapping and the key are put in before it.
-/

set_option autoImplicit false
set_option relaxedAutoImplicit false

namespace EntityMapping

namespace Yaml

/-- A possible key: its place, how many tokens come before it, and whether it must be one. -/
structure KeyCandidate where
  required : Bool
  tokensBefore : Nat
  index : Nat
  line : Nat
  column : Nat

/-- Where the pass over the text stands. Tokens are kept in reverse. `indent` is the column of the
innermost open block, `outerIndents` those around it; there is one possible key outside brackets
and one for every open bracket, innermost first. -/
structure Lexing where
  cursor : Cursor
  tokens : List Token
  indent : Option Nat
  outerIndents : List (Option Nat)
  keyAllowed : Bool
  candidate : Option KeyCandidate
  outerCandidates : List (Option KeyCandidate)

namespace Lexing

def start (text : List Char) : Lexing :=
  { cursor := Cursor.start text
    tokens := []
    indent := none
    outerIndents := []
    keyAllowed := true
    candidate := none
    outerCandidates := [] }

/-- Whether brackets are open. -/
def inFlow (state : Lexing) : Bool := !state.outerCandidates.isEmpty

def push (state : Lexing) (token : Token) : Lexing :=
  { state with tokens := token :: state.tokens }

/-- Put a token in after a number of tokens. -/
def insertAt (state : Lexing) (tokensBefore : Nat) (token : Token) : Lexing :=
  let later := state.tokens.length - tokensBefore
  { state with tokens := state.tokens.take later ++ token :: state.tokens.drop later }

/-- Whether an open block is indented less than a column. -/
def isInside (indent : Option Nat) (column : Nat) : Bool :=
  match indent with
  | none => true
  | some open_ => open_ < column

/-- Open a block at a column, unless brackets are open or a block is open there. -/
def openBlock (state : Lexing) (column tokensBefore : Nat) (token : Token) : Lexing :=
  if state.inFlow || !isInside state.indent column then state
  else
    { state.insertAt tokensBefore token with
      indent := some column
      outerIndents := state.indent :: state.outerIndents }

/-- Close the blocks that a column, or the end of the document, is outside of. -/
def closeBlocksFrom (column : Option Nat) :
    (indent : Option Nat) → (outer : List (Option Nat)) → List Token →
      Option Nat × List (Option Nat) × List Token
  | some current, outer, tokens =>
      if column.all (· < current) then
        match outer with
        | [] => (none, [], .blockEnd :: tokens)
        | next :: rest => closeBlocksFrom column next rest (.blockEnd :: tokens)
      else (some current, outer, tokens)
  | none, outer, tokens => (none, outer, tokens)
termination_by _ outer => outer.length

def closeBlocks (state : Lexing) (column : Option Nat) : Lexing :=
  if state.inFlow then state
  else
    let (indent, outer, tokens) :=
      closeBlocksFrom column state.indent state.outerIndents state.tokens
    { state with indent := indent, outerIndents := outer, tokens := tokens }

/-- Forget the possible key; it is an error if it had to be one. -/
def dropCandidate (state : Lexing) : Option Lexing :=
  match state.candidate with
  | some candidate => if candidate.required then none else some { state with candidate := none }
  | none => some state

/-- Remember the coming token as a possible key, where keys may stand. -/
def saveCandidate (state : Lexing) : Option Lexing :=
  if !state.keyAllowed then some state
  else do
    let cleared ← state.dropCandidate
    let cursor := state.cursor
    return { cleared with
      candidate := some
        { required := !state.inFlow && state.indent = some cursor.column
          tokensBefore := state.tokens.length
          index := cursor.index
          line := cursor.line
          column := cursor.column } }

/-- A key stands on one line and has at most 1024 bytes. -/
def isStale (cursor : Cursor) (candidate : KeyCandidate) : Bool :=
  candidate.line < cursor.line || candidate.index + 1024 < cursor.index

/-- The possible keys that still can be keys; none if one had to be a key and cannot. -/
def keepFresh (cursor : Cursor) (candidate : Option KeyCandidate) :
    Option (Option KeyCandidate) :=
  match candidate with
  | some key =>
      if !isStale cursor key then some candidate
      else if key.required then none
      else some none
  | none => some none

def dropStale (state : Lexing) : Option Lexing := do
  let candidate ← keepFresh state.cursor state.candidate
  let outer ← state.outerCandidates.mapM (keepFresh state.cursor)
  return { state with candidate := candidate, outerCandidates := outer }

/-- Go on to the next token past blanks, comments and line breaks. A tab may not indent a block; a
byte order mark may begin a line, and takes a column. -/
def skipGaps : (fuel : Nat) → Lexing → Lexing
  | 0, state => state
  | fuel + 1, state =>
      let tabs := state.inFlow || !state.keyAllowed
      let marked := state.cursor.column = 0 && state.cursor.sees byteOrderMark
      let start := if marked then state.cursor.skip 1 else state.cursor
      let blanks := start.skipSpan fun c => c = ' ' || (tabs && c = '\t')
      let lineEnd := if blanks.sees '#' then blanks.skipToLineEnd else blanks
      if lineEnd.isBreakAt 0 then
        skipGaps fuel
          { state with
            cursor := lineEnd.skipBreak
            keyAllowed := if state.inFlow then state.keyAllowed else true }
      else { state with cursor := lineEnd }

def moveTo (state : Lexing) (cursor : Cursor) : Lexing := { state with cursor := cursor }

def allowKey (state : Lexing) (allowed : Bool) : Lexing := { state with keyAllowed := allowed }

/-- A directive or a document mark closes all blocks. -/
def closeDocument (state : Lexing) : Option Lexing :=
  (state.closeBlocks none).dropCandidate.map (·.allowKey false)

def directive (state : Lexing) : Option Lexing := do
  let closed ← state.closeDocument
  let (token, after) ← readDirective closed.cursor
  return (closed.push token).moveTo after

def documentMark (state : Lexing) (token : Token) : Option Lexing := do
  let closed ← state.closeDocument
  return (closed.push token).moveTo (closed.cursor.skip 3)

def openBracket (state : Lexing) (token : Token) : Option Lexing := do
  let saved ← state.saveCandidate
  return { (saved.push token).moveTo (saved.cursor.skip 1) with
    candidate := none
    outerCandidates := saved.candidate :: saved.outerCandidates
    keyAllowed := true }

def closeBracket (state : Lexing) (token : Token) : Option Lexing := do
  let cleared ← state.dropCandidate
  let (candidate, outer) := match cleared.outerCandidates with
    | [] => (none, [])
    | next :: rest => (next, rest)
  return { (cleared.push token).moveTo (cleared.cursor.skip 1) with
    candidate := candidate
    outerCandidates := outer
    keyAllowed := false }

def flowEntry (state : Lexing) : Option Lexing := do
  let cleared ← state.dropCandidate
  return ((cleared.push .flowEntry).moveTo (cleared.cursor.skip 1)).allowKey true

def blockEntry (state : Lexing) : Option Lexing := do
  if !state.inFlow && !state.keyAllowed then none
  else
    let opened := state.openBlock state.cursor.column state.tokens.length .blockListStart
    let cleared ← opened.dropCandidate
    return ((cleared.push .blockEntry).moveTo (cleared.cursor.skip 1)).allowKey true

def explicitKey (state : Lexing) : Option Lexing := do
  if !state.inFlow && !state.keyAllowed then none
  else
    let opened := state.openBlock state.cursor.column state.tokens.length .blockMappingStart
    let cleared ← opened.dropCandidate
    return ((cleared.push .key).moveTo (cleared.cursor.skip 1)).allowKey (!state.inFlow)

def valueMark (state : Lexing) : Option Lexing :=
  match state.candidate with
  | some key =>
      let keyed := state.insertAt key.tokensBefore .key
      let opened := keyed.openBlock key.column key.tokensBefore .blockMappingStart
      let cleared := { opened with candidate := none }
      some (((cleared.push .value).moveTo (cleared.cursor.skip 1)).allowKey false)
  | none =>
      if !state.inFlow && !state.keyAllowed then none
      else
        let opened := state.openBlock state.cursor.column state.tokens.length .blockMappingStart
        some (((opened.push .value).moveTo (opened.cursor.skip 1)).allowKey (!state.inFlow))

/-- An anchor or an alias. Its name must end at a gap or at punctuation. -/
def anchored (state : Lexing) (token : String → Token) : Option Lexing := do
  let saved ← state.saveCandidate
  let name := (saved.cursor.skip 1).span isNameChar
  let after := saved.cursor.skip (1 + name.length)
  let closed := after.isGapAt 0 || (after.rest.head?.any fun c => "?:,]\x7d%@`".toList.contains c)
  if name.isEmpty || !closed then none
  else return ((saved.push (token (String.ofList name))).moveTo after).allowKey false

def tagged (state : Lexing) : Option Lexing := do
  let saved ← state.saveCandidate
  let (written, after) ← readTag saved.inFlow saved.cursor
  return ((saved.push (.tag written)).moveTo after).allowKey false

def blockScalar (state : Lexing) (literal : Bool) : Option Lexing := do
  let cleared ← state.dropCandidate
  let scalar ← readBlock literal cleared.indent cleared.cursor
  return ((cleared.push (.scalar (String.ofList scalar.text) false)).moveTo scalar.after).allowKey
    true

def quotedScalar (state : Lexing) (single : Bool) : Option Lexing := do
  let saved ← state.saveCandidate
  let scalar ← readQuoted single saved.cursor
  return ((saved.push (.scalar (String.ofList scalar.text) false)).moveTo scalar.after).allowKey
    false

def plainScalar (state : Lexing) : Option Lexing := do
  let saved ← state.saveCandidate
  let indent := match saved.indent with
    | some column => column + 1
    | none => 0
  let scalar ← readPlain saved.inFlow indent saved.cursor
  return ((saved.push (.scalar (String.ofList scalar.text) true)).moveTo scalar.after).allowKey
    scalar.endsLine

/-- Whether a plain scalar may start here. -/
def startsPlain (state : Lexing) : Bool :=
  let cursor := state.cursor
  match cursor.rest.head? with
  | none => false
  | some c =>
      !(isBlank c || isBreak c || "-?:,[]\x7b\x7d#&*!|>'\"%@`".toList.contains c) ||
        (c = '-' && !cursor.isBlankAt 1) ||
        (!state.inFlow && (c = '?' || c = ':') && !cursor.isGapAt 1)

/-- The next token; the state does not change at the end of the text. -/
def next (state : Lexing) : Option Lexing := do
  let fresh ← (skipGaps (state.cursor.rest.length + 1) state).dropStale
  let ready := fresh.closeBlocks (some fresh.cursor.column)
  let cursor := ready.cursor
  match cursor.rest.head? with
  | none => ready.closeDocument
  | some c =>
      let gapFollows := cursor.isGapAt 1
      if cursor.column = 0 && c = '%' then ready.directive
      else if cursor.seesMark '-' then ready.documentMark .documentStart
      else if cursor.seesMark '.' then ready.documentMark .documentEnd
      else if c = '[' then ready.openBracket .flowListStart
      else if c = '\x7b' then ready.openBracket .flowMappingStart
      else if c = ']' then ready.closeBracket .flowListEnd
      else if c = '\x7d' then ready.closeBracket .flowMappingEnd
      else if c = ',' then ready.flowEntry
      else if c = '-' && gapFollows then ready.blockEntry
      else if c = '?' && (ready.inFlow || gapFollows) then ready.explicitKey
      else if c = ':' && (ready.inFlow || gapFollows) then ready.valueMark
      else if c = '*' then ready.anchored .alias
      else if c = '&' then ready.anchored .anchor
      else if c = '!' then ready.tagged
      else if c = '|' && !ready.inFlow then ready.blockScalar true
      else if c = '>' && !ready.inFlow then ready.blockScalar false
      else if c = '\'' then ready.quotedScalar true
      else if c = '"' then ready.quotedScalar false
      else if ready.startsPlain then ready.plainScalar
      else none

/-- Run the pass to the end of the text. Every step but the last one takes a character. -/
def run : (fuel : Nat) → Lexing → Option Lexing
  | 0, state => some state
  | fuel + 1, state => if state.cursor.atEnd then state.next else (state.next).bind (run fuel)

end Lexing

/-- The tokens of a text; none if it has characters or tokens that do not belong there. -/
def tokens? (text : List Char) : Option (List Token) := do
  if !text.all isPrintable then none
  else
    let final ← Lexing.run (text.length + 1) (Lexing.start text)
    return final.tokens.reverse

end Yaml

end EntityMapping
