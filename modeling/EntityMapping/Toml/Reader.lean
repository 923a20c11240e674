import EntityMapping.Toml.Scalar

/-!
Reading TOML text: lines with a key and a value, and headers that open tables.
-/

set_option autoImplicit false
set_option relaxedAutoImplicit false

namespace EntityMapping

namespace Toml

/-- Lists, tables in braces and dotted keys are nested less than this deep. -/
def depthLimit : Nat := 80

/-- The rest of a line after a comment, if there is one; none if the comment has a control
character. -/
def afterComment? (text : List Char) : Option (List Char) :=
  match text with
  | '#' :: rest =>
      let beyond := rest.dropWhile isFree
      if beyond.isEmpty || (afterBreak? beyond).isSome then some beyond else none
  | _ => some text

/-- Go on past blanks, comments and line breaks. -/
def afterGaps? : (fuel : Nat) → List Char → Option (List Char)
  | 0, text => some text
  | fuel + 1, text => do
      let rest ← afterComment? (text.dropWhile isBlank)
      match afterBreak? rest with
      | some beyond => afterGaps? fuel beyond
      | none => return rest

/-- One key: a word or a string on one line. -/
def readSimpleKey (text : List Char) : Option (String × List Char) :=
  match text with
  | '"' :: rest => readLine false (rest.length + 1) [] rest
  | '\'' :: rest => readLine true (rest.length + 1) [] rest
  | _ =>
      let word := text.takeWhile fun c => c.isAlphanum || c = '_' || c = '-'
      if word.isEmpty then none else some (String.ofList word, text.drop word.length)

/-- Keys with dots between them. -/
def readKeys : (fuel : Nat) → List Char → Option (List String × List Char)
  | 0, _ => none
  | fuel + 1, text => do
      let (key, rest) ← readSimpleKey (text.dropWhile isBlank)
      match rest.dropWhile isBlank with
      | '.' :: more =>
          let (keys, beyond) ← readKeys fuel more
          return (key :: keys, beyond)
      | beyond => return ([key], beyond)

/-- A dotted key: the keys before the last dot, the last key, and the rest. -/
def readPath (text : List Char) : Option (List String × String × List Char) := do
  let (keys, rest) ← readKeys (text.length + 1) text
  if depthLimit ≤ keys.length then none
  else return (keys.dropLast, ← keys.getLast?, rest)

mutual

/-- A value and the rest. -/
def readValue : (fuel : Nat) → (depth : Nat) → List Char → Option (Value × List Char)
  | 0, _, _ => none
  | fuel + 1, depth, text =>
      match text with
      | '[' :: rest =>
          if depth + 1 < depthLimit then readItems fuel (depth + 1) [] rest else none
      | '\x7b' :: rest =>
          if depth + 1 < depthLimit then
            match rest.dropWhile isBlank with
            | '\x7d' :: beyond => some (.table .inline [], beyond)
            | body => readPairs fuel (depth + 1) [] body
          else none
      | c :: _ =>
          if c = '"' || c = '\'' then
            (readString text).map fun (value, rest) => (.text value, rest)
          else readBare text
      | [] => none

/-- The items of a list. A comma may follow the last one. -/
def readItems : (fuel : Nat) → (depth : Nat) → (read : List Value) → List Char →
    Option (Value × List Char)
  | 0, _, _, _ => none
  | fuel + 1, depth, read, text => do
      match ← afterGaps? text.length text with
      | ']' :: rest => return (.list read.reverse, rest)
      | start =>
          let (item, rest) ← readValue fuel depth start
          match ← afterGaps? rest.length rest with
          | ',' :: more => readItems fuel depth (item :: read) more
          | ']' :: more => return (.list (item :: read).reverse, more)
          | _ => none

/-- The pairs of a table in braces, on one line and without a comma after the last one. -/
def readPairs : (fuel : Nat) → (depth : Nat) → (entries : Keyed Value) → List Char →
    Option (Value × List Char)
  | 0, _, _, _ => none
  | fuel + 1, depth, entries, text => do
      let (path, key, afterKey) ← readPath text
      match afterKey with
      | '=' :: written =>
          let (value, rest) ← readValue fuel depth (written.dropWhile isBlank)
          let added ← addPair .inline entries path key value
          match rest.dropWhile isBlank with
          | ',' :: more => readPairs fuel depth added more
          | '\x7d' :: more => return (.table .inline added, more)
          | _ => none
      | _ => none

end

/-- The end of a line, after a comment if there is one. -/
def afterLine? (text : List Char) : Option (List Char) := do
  let rest ← afterComment? (text.dropWhile isBlank)
  if rest.isEmpty then return rest else afterBreak? rest

/-- A header, after its first bracket. -/
def readHeader (building : Building) (text : List Char) : Option (Building × List Char) := do
  match text with
  | '[' :: inner =>
      let (path, key, rest) ← readPath inner
      match rest with
      | ']' :: ']' :: beyond => return (← building.header true (path ++ [key]), beyond)
      | _ => none
  | _ =>
      let (path, key, rest) ← readPath text
      match rest with
      | ']' :: beyond => return (← building.header false (path ++ [key]), beyond)
      | _ => none

/-- A key and its value. -/
def readPair (building : Building) (text : List Char) : Option (Building × List Char) := do
  let (path, key, afterKey) ← readPath text
  match afterKey with
  | '=' :: written =>
      let (value, rest) ← readValue (2 * written.length + 2) 0 (written.dropWhile isBlank)
      return (← building.pair path key value, rest)
  | _ => none

/-- The lines of a document. -/
def readDocument : (fuel : Nat) → Building → List Char → Option Building
  | 0, building, _ => some building
  | fuel + 1, building, text => do
      let start ← afterGaps? text.length text
      match start with
      | [] => return building
      | '[' :: rest =>
          let (next, beyond) ← readHeader building rest
          readDocument fuel next (← afterLine? beyond)
      | _ =>
          let (next, beyond) ← readPair building start
          readDocument fuel next (← afterLine? beyond)

/-- The entries that a text holds; none if the text is not TOML. -/
def read? (text : String) : Option (Keyed Value) := do
  let body := match text.toList with
    | c :: rest => if c.toNat = 0xFEFF then rest else c :: rest
    | [] => []
  let building ← readDocument (body.length + 1) Building.start body
  building.finish

end Toml

end EntityMapping
