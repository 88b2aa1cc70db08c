import FieldSelection.Json.Reader

/-!
Quoted strings of TOML documents.

Double quotes allow escapes, single quotes take everything as it is. Three quotes
of either kind open a string of several lines; a line break right after them does
not count, and in double quotes a backslash at the end of a line takes away the
line break and all blanks after it. A carriage return stands only before a line
feed, which is checked beforehand, and stays in strings of several lines.

* `Toml.readBasic`, `Toml.readLiteral`: strings on one line.
* `Toml.readLongBasic`, `Toml.readLongLiteral`: strings of several lines.
-/

namespace FieldSelection

namespace Toml

/-- Control characters do not stand in a document, except for the tab and line
breaks where a line may end. -/
def isControl (c : Char) : Bool :=
  (c.toNat < 0x20 && c ≠ '\t' && c ≠ '\r') || c = '\x7f'

/-- Blanks on a line; a carriage return belongs to the line break after it. -/
def isGap (c : Char) : Bool :=
  c = ' ' || c = '\t' || c = '\r'

/-- What a string with escapes is in the middle of. -/
inductive Escaping where
  /-- Between two characters. -/
  | plain
  /-- After a backslash. -/
  | escape
  /-- In an escape by number: hexadecimal digits still missing, and the value so
  far. -/
  | code (missing value : Nat)
  /-- After a backslash that ends a line, and whether the line break was
  there. -/
  | trimming (broken : Bool)

/-- The character that a letter after a backslash stands for. -/
def simpleEscape? (c : Char) : Option Char :=
  if c = '"' || c = '\\' then some c
  else if c = 'b' then some '\x08'
  else if c = 't' then some '\t'
  else if c = 'n' then some '\n'
  else if c = 'f' then some '\x0c'
  else if c = 'r' then some '\r'
  else if c = 'e' then some '\x1b'
  else none

/-- One character between two others. -/
def plainStep (multiline : Bool) (c : Char) : Option (Option Char × Escaping) :=
  if c = '\\' then some (none, .escape)
  else if c = '\n' then if multiline then some (some c, .plain) else none
  else if isControl c then none
  else some (some c, .plain)

/-- Read one character of a string with escapes: what it adds to the string and
what comes next. -/
def Escaping.step (multiline : Bool) (c : Char) : Escaping → Option (Option Char × Escaping)
  | .plain => plainStep multiline c
  | .escape =>
    if c = 'x' then some (none, .code 2 0)
    else if c = 'u' then some (none, .code 4 0)
    else if c = 'U' then some (none, .code 8 0)
    else if multiline && isGap c then some (none, .trimming false)
    else if multiline && c = '\n' then some (none, .trimming true)
    else (simpleEscape? c).map fun c => (some c, .plain)
  | .code missing value => do
    let value := value * 16 + (← Json.hexValue? c)
    if missing ≤ 1 then
      if value.isValidChar then some (some (Char.ofNat value), .plain) else none
    else some (none, .code (missing - 1) value)
  | .trimming broken =>
    if isGap c then some (none, .trimming broken)
    else if c = '\n' then some (none, .trimming true)
    else if broken then plainStep multiline c
    else none

/-- Whether quotes may close the string here. -/
def Escaping.closable : Escaping → Bool
  | .plain | .trimming true => true
  | _ => false

/-- Read a string on one line after its opening double quote: the characters and
the text after the closing quote. `read` holds the characters so far, last one
first. -/
def readBasic (state : Escaping) (read : List Char) :
    List Char → Option (List Char × List Char)
  | [] => none
  | c :: text =>
    if c = '"' && state.closable then some (read.reverse, text)
    else
      match state.step false c with
      | none => none
      | some (none, state) => readBasic state read text
      | some (some d, state) => readBasic state (d :: read) text

/-- Read a string on one line after its opening single quote. -/
def readLiteral (read : List Char) : List Char → Option (List Char × List Char)
  | [] => none
  | c :: text =>
    if c = '\'' then some (read.reverse, text)
    else if isControl c then none
    else readLiteral (c :: read) text

/-- The text after three closing quotes, and how many quotes before them belong to
the string: at most two. -/
def closeLong? (quote : Char) (text : List Char) : Option (Nat × List Char) :=
  let count := (text.takeWhile (· = quote)).length
  if count < 3 then none
  else some (min (count - 3) 2, text.drop (min count 5))

/-- Read a string of several lines after its three opening double quotes. -/
def readLongBasic (state : Escaping) (read : List Char) :
    List Char → Option (List Char × List Char)
  | [] => none
  | c :: text =>
    match if state.closable then closeLong? '"' (c :: text) else none with
    | some (quotes, rest) => some (read.reverse ++ List.replicate quotes '"', rest)
    | none =>
      match state.step true c with
      | none => none
      | some (none, state) => readLongBasic state read text
      | some (some d, state) => readLongBasic state (d :: read) text

/-- Read a string of several lines after its three opening single quotes. -/
def readLongLiteral (read : List Char) : List Char → Option (List Char × List Char)
  | [] => none
  | c :: text =>
    match closeLong? '\'' (c :: text) with
    | some (quotes, rest) => some (read.reverse ++ List.replicate quotes '\'', rest)
    | none =>
      if isControl c && c ≠ '\n' then none
      else readLongLiteral (c :: read) text

/-- A text without a line break at its front. -/
def dropBreak : List Char → List Char
  | '\n' :: text | '\r' :: '\n' :: text => text
  | text => text

/-- Read a string on one line, quotes included. -/
def readShort : List Char → Option (List Char × List Char)
  | '"' :: text => readBasic .plain [] text
  | '\'' :: text => readLiteral [] text
  | _ => none

/-- Read a string of either kind, quotes included. -/
def readQuoted : List Char → Option (List Char × List Char)
  | '"' :: '"' :: '"' :: text => readLongBasic .plain [] (dropBreak text)
  | '\'' :: '\'' :: '\'' :: text => readLongLiteral [] (dropBreak text)
  | text => readShort text

end Toml

end FieldSelection
