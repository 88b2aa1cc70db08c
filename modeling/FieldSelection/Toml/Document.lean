import FieldSelection.Toml.Quoted
import FieldSelection.Toml.Scalar
import FieldSelection.Toml.Table

/-!
TOML documents.

A document is a list of lines: headers, keys with values, comments and blank
lines. Arrays and inline tables may run over several lines. Every number of steps
is bounded by the length of the text, since each step takes at least one
character.

* `Toml.parse`: the JSON value of a document.
-/

namespace FieldSelection

namespace Toml

/-! ### Blanks and comments -/

/-- A text without gaps at its front. -/
def skipGap (text : List Char) : List Char :=
  text.dropWhile isGap

/-- The text from the end of the line on. A comment holds no control
characters. -/
def skipComment (text : List Char) : Option (List Char) :=
  let rest := text.dropWhile (!isControl ·)
  match rest with
  | [] => some []
  | c :: _ => if c = '\n' then some rest else none

/-- The text from the end of the line on, if nothing but a comment stands before
it. -/
def endLine (text : List Char) : Option (List Char) :=
  match skipGap text with
  | [] => some []
  | '\n' :: rest => some rest
  | '#' :: rest => (skipComment rest).map dropBreak
  | _ => none

/-- A text without gaps, line breaks and comments at its front. -/
def skipLines : (steps : Nat) → List Char → Option (List Char)
  | 0, text => some text
  | steps + 1, text =>
    match skipGap text with
    | '\n' :: rest => skipLines steps rest
    | '#' :: rest => (skipComment rest).bind (skipLines steps)
    | rest => some rest

/-! ### Keys -/

/-- The characters of keys without quotes. -/
def isKeyChar (c : Char) : Bool :=
  c.isAlphanum || c = '_' || c = '-'

/-- Read one part of a key. -/
def readPart (text : List Char) : Option (String × List Char) :=
  match text with
  | '"' :: _ | '\'' :: _ => (readShort text).map fun (part, rest) => (.ofList part, rest)
  | _ =>
    match text.takeWhile isKeyChar with
    | [] => none
    | part => some (.ofList part, text.dropWhile isKeyChar)

/-- How deeply arrays and inline tables may be nested, and how many parts a dotted
key may have. -/
def nestingLimit : Nat := 80

/-- Read a dotted key of at most `room` parts: the parts before the last dot, the
last part, and the text after the key and the gap behind it. -/
def readKey : (room : Nat) → List Char → Option (List String × String × List Char)
  | 0, _ => none
  | room + 1, text => do
    let (part, rest) ← readPart (skipGap text)
    match skipGap rest with
    | '.' :: rest =>
      let (path, key, rest) ← readKey room rest
      some (part :: path, key, rest)
    | rest => some ([], part, rest)

/-! ### Values -/

/-- The characters of scalars without quotes. -/
def isScalarChar (c : Char) : Bool :=
  isKeyChar c || c = '+' || c = '.' || c = ':'

/-- Read a scalar without quotes. A single space may separate a date from a
time. -/
def readScalar (text : List Char) : Option (Json × List Char) :=
  let run := text.takeWhile isScalarChar
  let rest := text.dropWhile isScalarChar
  match afterDate? run, rest with
  | some [], ' ' :: c :: more =>
    if c.isDigit then
      let time := (c :: more).takeWhile isScalarChar
      (scalar? (run ++ ' ' :: time)).map (·, (c :: more).dropWhile isScalarChar)
    else (scalar? run).map (·, rest)
  | _, _ => (scalar? run).map (·, rest)

mutual

/-- Read a value; `room` more arrays and inline tables may be opened around each
other. -/
def readValue : (steps room : Nat) → List Char → Option (Json × List Char)
  | 0, _, _ => none
  | steps + 1, room, text =>
    match text with
    | '[' :: rest => if room = 0 then none else readItems steps (room - 1) [] rest
    | '\x7b' :: rest => if room = 0 then none else readFields steps (room - 1) [] rest
    | '"' :: _ | '\'' :: _ =>
      (readQuoted text).map fun (s, rest) => (.string (.ofList s), rest)
    | _ => readScalar text

/-- Read the items of an array up to its closing bracket; `items` holds the ones
before, last one first. -/
def readItems :
    (steps room : Nat) → (items : List Json) → List Char → Option (Json × List Char)
  | 0, _, _, _ => none
  | steps + 1, room, items, text => do
    let text ← skipLines steps text
    match text with
    | ']' :: rest => some (.array items.reverse, rest)
    | _ =>
      let (value, rest) ← readValue steps room text
      match ← skipLines steps rest with
      | ',' :: rest => readItems steps room (value :: items) rest
      | ']' :: rest => some (.array (value :: items).reverse, rest)
      | _ => none

/-- Read the entries of an inline table up to its closing brace; `table` holds the
ones before. Lines may be broken anywhere but inside of a key. -/
def readFields :
    (steps room : Nat) → (table : Table) → List Char → Option (Json × List Char)
  | 0, _, _, _ => none
  | steps + 1, room, table, text => do
    let text ← skipLines steps text
    match text with
    | '\x7d' :: rest => some (.object (tableToJson table), rest)
    | _ =>
      let (path, key, rest) ← readKey nestingLimit text
      let rest ← expectChar '=' (← skipLines steps rest)
      let (value, rest) ← readValue steps room (← skipLines steps rest)
      let table ← insert path key value table
      match ← skipLines steps rest with
      | ',' :: rest => readFields steps room table rest
      | '\x7d' :: rest => some (.object (tableToJson table), rest)
      | _ => none

end

/-! ### Lines -/

/-- A document so far: its tables and the path of the last header. -/
structure Document where
  root : Table := []
  header : List String := []

/-- Read the rest of a header after its opening brackets. -/
def Document.readHeader (document : Document) (isElement : Bool) (text : List Char) :
    Option (Document × List Char) := do
  let (path, key, rest) ← readKey nestingLimit text
  let rest ← expectChar ']' rest
  let rest ← if isElement then expectChar ']' rest else some rest
  let root ← openHeader isElement path key document.root
  some (⟨root, path ++ [key]⟩, ← endLine rest)

/-- Read a key with its value. -/
def Document.readEntry (document : Document) (steps : Nat) (text : List Char) :
    Option (Document × List Char) := do
  let (path, key, rest) ← readKey nestingLimit text
  let rest ← expectChar '=' rest
  let (value, rest) ← readValue steps nestingLimit (skipGap rest)
  let root ← descend (insert path key value) document.header document.root
  some ({ document with root }, ← endLine rest)

/-- Read the lines of a document. -/
def Document.readLines : (steps : Nat) → Document → List Char → Option Document
  | 0, _, _ => none
  | steps + 1, document, text => do
    match ← skipLines steps text with
    | [] => some document
    | '[' :: '[' :: rest =>
      let (document, rest) ← document.readHeader true rest
      readLines steps document rest
    | '[' :: rest =>
      let (document, rest) ← document.readHeader false rest
      readLines steps document rest
    | rest =>
      let (document, rest) ← document.readEntry steps rest
      readLines steps document rest

/-- Whether every carriage return stands before a line feed. -/
def hasWholeBreaks : List Char → Bool
  | [] => true
  | c :: text => (c ≠ '\r' || text.head? = some '\n') && hasWholeBreaks text

/-- A text without a byte order mark at its front. -/
def dropMark : List Char → List Char
  | '\ufeff' :: text => text
  | text => text

/-- The JSON value of a document. -/
def parse (text : String) : Option Json :=
  let text := dropMark text.toList
  if hasWholeBreaks text then
    (Document.readLines (text.length + 2) {} text).map fun document =>
      .object (tableToJson document.root)
  else none

end Toml

end FieldSelection
