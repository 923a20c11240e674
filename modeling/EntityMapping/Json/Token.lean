import EntityMapping.Json.Number

/-!
The tokens of JSON text. A text is cut into tokens by one pass over its characters.
-/

set_option autoImplicit false
set_option relaxedAutoImplicit false

namespace EntityMapping

namespace Json

/-- A token: punctuation, a string, or another scalar value. -/
inductive Token where
  | openList
  | closeList
  | openObject
  | closeObject
  | comma
  | colon
  | text (value : String)
  | scalar (value : Json)

/-- Where a pass over the characters stands. Characters read so far are kept in reverse. -/
inductive Lexing where
  /-- Between two tokens. -/
  | between
  /-- Inside a number or a word. -/
  | bare (read : List Char)
  /-- Inside a string. -/
  | quoted (read : List Char)
  /-- After a backslash inside a string. -/
  | escaped (read : List Char)
  /-- Inside the four digits of a code unit, perhaps the second one of a pair. -/
  | unit (read : List Char) (high : Option Nat) (digits : Nat) (value : Nat)
  /-- After the first code unit of a pair, before the backslash of the second. -/
  | paired (read : List Char) (high : Nat)
  /-- After that backslash. -/
  | pairedEscape (read : List Char) (high : Nat)

/-- The tokens read so far, in reverse, and where the pass stands. -/
structure LexState where
  tokens : List Token
  lexing : Lexing

/-- The value of a word or a number. -/
def bareValue? (text : List Char) : Option Json :=
  if text = "null".toList then some .null
  else if text = "true".toList then some (.bool true)
  else if text = "false".toList then some (.bool false)
  else number? text

def isBlank (c : Char) : Bool := c = ' ' || c = '\n' || c = '\t' || c = '\r'

/-- Characters of numbers and words. -/
def isBare (c : Char) : Bool := c.isAlphanum || c = '+' || c = '-' || c = '.'

/-- The value of a hexadecimal digit. -/
def hexValue? (c : Char) : Option Nat :=
  if c.isDigit then some (c.toNat - '0'.toNat)
  else if 'a' ≤ c && c ≤ 'f' then some (c.toNat - 'a'.toNat + 10)
  else if 'A' ≤ c && c ≤ 'F' then some (c.toNat - 'A'.toNat + 10)
  else none

/-- The character of a one-letter escape. -/
def escapedChar? (c : Char) : Option Char :=
  match c with
  | '"' => some '"'
  | '\\' => some '\\'
  | '/' => some '/'
  | 'b' => some (Char.ofNat 0x08)
  | 'f' => some (Char.ofNat 0x0c)
  | 'n' => some '\n'
  | 'r' => some '\r'
  | 't' => some '\t'
  | _ => none

/-- A character between two tokens. -/
def LexState.start (tokens : List Token) (c : Char) : Option LexState :=
  let punctuation (token : Token) : Option LexState := some ⟨token :: tokens, .between⟩
  if isBlank c then some ⟨tokens, .between⟩
  else if c = '[' then punctuation .openList
  else if c = ']' then punctuation .closeList
  else if c = '\x7b' then punctuation .openObject
  else if c = '\x7d' then punctuation .closeObject
  else if c = ',' then punctuation .comma
  else if c = ':' then punctuation .colon
  else if c = '"' then some ⟨tokens, .quoted []⟩
  else if isBare c then some ⟨tokens, .bare [c]⟩
  else none

/-- A code unit with all its digits read. A first code unit of a pair must be followed by the
second; a second one must not stand alone. -/
def Lexing.ofUnit (read : List Char) (high : Option Nat) (value : Nat) : Option Lexing :=
  match high with
  | some high =>
      if 0xDC00 ≤ value && value ≤ 0xDFFF then
        some (.quoted
          (Char.ofNat (0x10000 + (high - 0xD800) * 0x400 + (value - 0xDC00)) :: read))
      else none
  | none =>
      if 0xD800 ≤ value && value ≤ 0xDBFF then some (.paired read value)
      else if 0xDC00 ≤ value && value ≤ 0xDFFF then none
      else some (.quoted (Char.ofNat value :: read))

/-- One character of the pass. -/
def LexState.step (state : LexState) (c : Char) : Option LexState :=
  match state.lexing with
  | .between => LexState.start state.tokens c
  | .bare read =>
      if isBare c then some ⟨state.tokens, .bare (c :: read)⟩
      else do
        let value ← bareValue? read.reverse
        LexState.start (.scalar value :: state.tokens) c
  | .quoted read =>
      if c = '"' then some ⟨.text (String.ofList read.reverse) :: state.tokens, .between⟩
      else if c = '\\' then some ⟨state.tokens, .escaped read⟩
      else if c.toNat < 0x20 then none
      else some ⟨state.tokens, .quoted (c :: read)⟩
  | .escaped read =>
      if c = 'u' then some ⟨state.tokens, .unit read none 0 0⟩
      else (escapedChar? c).map fun char => ⟨state.tokens, .quoted (char :: read)⟩
  | .unit read high digits value => do
      let next := value * 16 + (← hexValue? c)
      if digits < 3 then some ⟨state.tokens, .unit read high (digits + 1) next⟩
      else (Lexing.ofUnit read high next).map fun lexing => ⟨state.tokens, lexing⟩
  | .paired read high => if c = '\\' then some ⟨state.tokens, .pairedEscape read high⟩ else none
  | .pairedEscape read high =>
      if c = 'u' then some ⟨state.tokens, .unit read (some high) 0 0⟩ else none

/-- Run the pass over the rest of the characters. -/
def LexState.run : LexState → List Char → Option LexState
  | state, [] => some state
  | state, c :: rest => (state.step c).bind fun next => LexState.run next rest

/-- The tokens of a text; none if it has a character or a scalar that JSON does not know. -/
def tokens? (text : List Char) : Option (List Token) := do
  let state ← LexState.run ⟨[], .between⟩ text
  match state.lexing with
  | .between => return state.tokens.reverse
  | .bare read => return (.scalar (← bareValue? read.reverse) :: state.tokens).reverse
  | _ => none

end Json

end EntityMapping
