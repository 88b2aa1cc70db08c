import FieldSelection.Json.Basic
import FieldSelection.Number.Shortest

/-!
JSON texts of values.

* `Json.compact`: the text without any blanks.
* `Json.pretty`: the text with an entry or an item a line, indented by two
  spaces a level; empty objects and arrays stay on their line.
-/

namespace FieldSelection

namespace Json

/-! ### Scalars -/

/-- The lower-case hexadecimal digit of a number below sixteen. -/
def hexDigit (n : Nat) : Char :=
  (Nat.toDigits 16 n).headD '0'

/-- How a character stands in a string: the quote and the backslash are escaped,
and so are the control characters below the space. -/
def escapeChar (c : Char) : List Char :=
  if c = '"' then ['\\', '"']
  else if c = '\\' then ['\\', '\\']
  else if c = '\x08' then ['\\', 'b']
  else if c = '\t' then ['\\', 't']
  else if c = '\n' then ['\\', 'n']
  else if c = '\x0c' then ['\\', 'f']
  else if c = '\r' then ['\\', 'r']
  else if c.toNat < 0x20 then
    ['\\', 'u', '0', '0', hexDigit (c.toNat / 16), hexDigit (c.toNat % 16)]
  else [c]

/-- A string in quotes. -/
def quoted (s : String) : String :=
  .ofList ('"' :: (s.toList.flatMap escapeChar ++ ['"']))

/-- The text of a number. -/
def numberText : Number → String
  | .int n => toString n
  | .float x => x.text

/-! ### Compact texts -/

mutual

/-- The text of a value without any blanks. -/
def compact : Json → String
  | .null => "null"
  | .bool true => "true"
  | .bool false => "false"
  | .number n => numberText n
  | .string s => quoted s
  | .array items => "[" ++ ",".intercalate (compactItems items) ++ "]"
  | .object entries => "\x7b" ++ ",".intercalate (compactEntries entries) ++ "\x7d"

/-- The compact texts of some values. -/
def compactItems : List Json → List String
  | [] => []
  | value :: items => compact value :: compactItems items

/-- The compact texts of some entries. -/
def compactEntries : List (String × Json) → List String
  | [] => []
  | (key, value) :: entries =>
    (quoted key ++ ":" ++ compact value) :: compactEntries entries

end

/-! ### Indented texts -/

/-- Texts between two brackets, one a line, indented one level deeper than the
brackets. -/
def block (opening closing : String) (level : Nat) : List String → String
  | [] => opening ++ closing
  | texts =>
    let line (level : Nat) := "\n" ++ String.ofList (List.replicate (2 * level) ' ')
    opening ++ line (level + 1) ++ ("," ++ line (level + 1)).intercalate texts ++
      line level ++ closing

mutual

/-- The indented text of a value that stands at a level. -/
def prettyAt (level : Nat) : Json → String
  | .null => "null"
  | .bool true => "true"
  | .bool false => "false"
  | .number n => numberText n
  | .string s => quoted s
  | .array items => block "[" "]" level (prettyItems (level + 1) items)
  | .object entries => block "\x7b" "\x7d" level (prettyEntries (level + 1) entries)

/-- The indented texts of some values. -/
def prettyItems (level : Nat) : List Json → List String
  | [] => []
  | value :: items => prettyAt level value :: prettyItems level items

/-- The indented texts of some entries. -/
def prettyEntries (level : Nat) : List (String × Json) → List String
  | [] => []
  | (key, value) :: entries =>
    (quoted key ++ ": " ++ prettyAt level value) :: prettyEntries level entries

end

/-- The indented text of a value. -/
def pretty (value : Json) : String :=
  prettyAt 0 value

end Json

end FieldSelection
