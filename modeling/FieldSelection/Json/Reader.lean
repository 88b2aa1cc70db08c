import FieldSelection.Json.Basic

/-!
Reading JSON texts.

The reader is strict: no comments, no trailing commas, no text after the value,
no leading zeros and no half of a surrogate pair. A text is cut into lexemes, and
the lexemes drive a stack of the arrays and objects that are still open.

* `Json.lexemes?`: the lexemes of a text.
* `Json.parseRaw`: the value of a text, with repeated keys as they stand.
* `Json.parse`: the value of a text, repeated keys merged.
-/

namespace FieldSelection

namespace Json

/-! ### Numbers -/

/-- The value of a decimal digit. -/
def digit (c : Char) : Nat :=
  c.toNat - '0'.toNat

/-- The largest significand that is read digit by digit. -/
def largestSignificand : Nat := power 2 64 - 1

/-- Append digits to a significand as long as it stays within
`largestSignificand`; the digits from the first one that does not fit on are
returned. -/
def absorb (significand : Nat) : List Char → Nat × List Char
  | [] => (significand, [])
  | c :: digits =>
    if largestSignificand < significand * 10 + digit c then (significand, c :: digits)
    else absorb (significand * 10 + digit c) digits

/-- A number as it is written: its sign, the digits before the point, those after
it if there is one, and the exponent with its sign if there is one. -/
structure Numeral where
  negative : Bool
  whole : List Char
  fraction : Option (List Char)
  exponent : Option (Bool × List Char)
  deriving Repr

/-- The value of some decimal digits. -/
def digitsValue (digits : List Char) : Nat :=
  digits.foldl (fun n c => n * 10 + digit c) 0

/-- The largest exponent that is taken as written. -/
def largestExponent : Nat := power 2 31 - 1

/-- The value of a numeral with a point or an exponent, or one that is too long
for a whole number. Digits that do not fit the significand are dropped. -/
def Numeral.float (numeral : Numeral) : Option Binary64 :=
  let (whole, dropped) := absorb 0 numeral.whole
  let fraction := numeral.fraction.getD []
  let (significand, rest) := absorb whole fraction
  let shift : Int := dropped.length - (fraction.length - rest.length : Nat)
  let magnitude :=
    match numeral.exponent with
    | none => Binary64.ofDecimal significand shift
    | some (negative, digits) =>
      let exponent := digitsValue digits
      if largestExponent < exponent then
        if significand = 0 || negative then some .zero else none
      else if negative then Binary64.ofDecimal significand (shift - exponent)
      else Binary64.ofDecimal significand (shift + exponent)
  magnitude.map (·.withSign numeral.negative)

/-- The value of a numeral. A whole number from `-2 ^ 63` up to `2 ^ 64 - 1` is
exact; negative zero has a binary point, and so has every other whole number. -/
def Numeral.value (numeral : Numeral) : Option Number :=
  let whole := digitsValue numeral.whole
  if numeral.fraction.isSome || numeral.exponent.isSome ||
      decide (largestSignificand < whole) then
    numeral.float.map .float
  else if !numeral.negative then some (.int whole)
  else if whole = 0 || decide (power 2 63 < whole) then numeral.float.map .float
  else some (.int (-whole))

/-- Read the digits of a numeral. -/
def readDigits (text : List Char) : List Char × List Char :=
  (text.takeWhile Char.isDigit, text.dropWhile Char.isDigit)

/-- Read the digits before the point: one zero, or digits that start with another
one. -/
def readWhole (text : List Char) : Option (List Char × List Char) :=
  match readDigits text with
  | ([], _) => none
  | (['0'], rest) => some (['0'], rest)
  | ('0' :: _ :: _, _) => none
  | (digits, rest) => some (digits, rest)

/-- Read the point and the digits after it, if a point comes next. -/
def readFraction : List Char → Option (Option (List Char) × List Char)
  | '.' :: text =>
    match readDigits text with
    | ([], _) => none
    | (digits, rest) => some (some digits, rest)
  | text => some (none, text)

/-- Read the digits of an exponent. -/
def readExponentDigits (negative : Bool) (text : List Char) :
    Option (Option (Bool × List Char) × List Char) :=
  match readDigits text with
  | ([], _) => none
  | (digits, rest) => some (some (negative, digits), rest)

/-- Read an exponent, if one comes next. -/
def readExponent : List Char → Option (Option (Bool × List Char) × List Char)
  | c :: text =>
    if c = 'e' || c = 'E' then
      match text with
      | '-' :: text => readExponentDigits true text
      | '+' :: text => readExponentDigits false text
      | _ => readExponentDigits false text
    else some (none, c :: text)
  | [] => some (none, [])

/-- Read all the characters of a numeral. -/
def readNumeral (text : List Char) : Option Numeral := do
  let (negative, text) :=
    match text with
    | '-' :: text => (true, text)
    | _ => (false, text)
  let (whole, text) ← readWhole text
  let (fraction, text) ← readFraction text
  let (exponent, text) ← readExponent text
  if text = [] then some ⟨negative, whole, fraction, exponent⟩ else none

/-! ### Strings -/

/-- The value of a hexadecimal digit. -/
def hexValue? (c : Char) : Option Nat :=
  if c.isDigit then some (digit c)
  else if 'a' ≤ c ∧ c ≤ 'f' then some (c.toNat - 'a'.toNat + 10)
  else if 'A' ≤ c ∧ c ≤ 'F' then some (c.toNat - 'A'.toNat + 10)
  else none

/-- What a string literal is in the middle of. -/
inductive Literal where
  /-- Between two characters. -/
  | plain
  /-- After a backslash. -/
  | escape
  /-- In an escape by number: hexadecimal digits read, their value, and the first
  half of a surrogate pair if this is its second half. -/
  | code (digits value : Nat) (lead : Option Nat)
  /-- After the first half of a surrogate pair. -/
  | half (lead : Nat)
  /-- After the first half of a surrogate pair and a backslash. -/
  | halfEscape (lead : Nat)

/-- The character that a letter after a backslash stands for. -/
def simpleEscape? (c : Char) : Option Char :=
  if c = '"' || c = '\\' || c = '/' then some c
  else if c = 'b' then some '\x08'
  else if c = 'f' then some '\x0c'
  else if c = 'n' then some '\n'
  else if c = 'r' then some '\r'
  else if c = 't' then some '\t'
  else none

/-- Finish an escape by number: a character, or the first half of a pair. -/
def finishCode (value : Nat) : Option Nat → Option (Option Char × Literal)
  | none =>
    if 0xDC00 ≤ value && value ≤ 0xDFFF then none
    else if 0xD800 ≤ value && value ≤ 0xDBFF then some (none, .half value)
    else some (some (Char.ofNat value), .plain)
  | some lead =>
    if 0xDC00 ≤ value && value ≤ 0xDFFF then
      some (some (Char.ofNat (0x10000 + (lead - 0xD800) * 0x400 + (value - 0xDC00))), .plain)
    else none

/-- Read one character of a string literal that is not its closing quote: what it
adds to the string and what comes next. -/
def Literal.step (c : Char) : Literal → Option (Option Char × Literal)
  | .plain =>
    if c = '\\' then some (none, .escape)
    else if c.toNat < 0x20 then none
    else some (some c, .plain)
  | .escape =>
    if c = 'u' then some (none, .code 0 0 none)
    else (simpleEscape? c).map fun c => (some c, .plain)
  | .code digits value lead => do
    let next := value * 16 + (← hexValue? c)
    if digits = 3 then finishCode next lead else some (none, .code (digits + 1) next lead)
  | .half lead => if c = '\\' then some (none, .halfEscape lead) else none
  | .halfEscape lead => if c = 'u' then some (none, .code 0 0 (some lead)) else none

/-- Whether a quote would close the literal here. -/
def Literal.closable : Literal → Bool
  | .plain => true
  | _ => false

/-- Read a string literal after its opening quote: its characters and the text
after its closing quote. `read` holds the characters so far, last one first. -/
def readLiteral (state : Literal) (read : List Char) :
    List Char → Option (List Char × List Char)
  | [] => none
  | c :: text =>
    if c = '"' && state.closable then some (read.reverse, text)
    else
      match state.step c with
      | none => none
      | some (none, state) => readLiteral state read text
      | some (some d, state) => readLiteral state (d :: read) text

/-- A string literal takes at least its closing quote. -/
theorem length_lt_of_readLiteral {state : Literal} {read text s rest : List Char}
    (h : readLiteral state read text = some (s, rest)) : rest.length < text.length := by
  induction text generalizing state read with
  | nil => simp [readLiteral] at h
  | cons c text ih =>
    rw [readLiteral] at h
    split at h
    · simp only [Option.some.injEq, Prod.mk.injEq] at h
      simp [h.2]
    · split at h
      · simp at h
      · exact Nat.lt_succ_of_lt (ih h)
      · exact Nat.lt_succ_of_lt (ih h)

/-! ### Lexemes -/

/-- A lexeme of a JSON text. -/
inductive Lexeme where
  | openArray
  | closeArray
  | openObject
  | closeObject
  | comma
  | colon
  /-- A scalar value; a string may also be a key. -/
  | scalar (value : Json)

/-- The lexeme of a punctuation mark. -/
def punctuation? (c : Char) : Option Lexeme :=
  if c = '[' then some .openArray
  else if c = ']' then some .closeArray
  else if c = '\x7b' then some .openObject
  else if c = '\x7d' then some .closeObject
  else if c = ',' then some .comma
  else if c = ':' then some .colon
  else none

/-- The blanks between lexemes. -/
def isSpace (c : Char) : Bool :=
  c = ' ' || c = '\n' || c = '\t' || c = '\r'

/-- The characters of numerals and of the words for constants. -/
def isBare (c : Char) : Bool :=
  c.isAlphanum || c = '+' || c = '-' || c = '.'

/-- The value of a run of bare characters. -/
def bareValue? (run : List Char) : Option Json :=
  if run = ['n', 'u', 'l', 'l'] then some .null
  else if run = ['t', 'r', 'u', 'e'] then some (.bool true)
  else if run = ['f', 'a', 'l', 's', 'e'] then some (.bool false)
  else ((readNumeral run).bind Numeral.value).map .number

/-- The lexemes of a text. -/
def lexemes? (text : List Char) : Option (List Lexeme) :=
  match text with
  | [] => some []
  | c :: text =>
    if isSpace c then lexemes? text
    else if c = '"' then
      match h : readLiteral .plain [] text with
      | none => none
      | some (s, rest) =>
        have : rest.length < text.length := length_lt_of_readLiteral h
        (lexemes? rest).map (.scalar (.string (.ofList s)) :: ·)
    else
      match punctuation? c with
      | some lexeme => (lexemes? text).map (lexeme :: ·)
      | none =>
        have := (List.dropWhile_sublist isBare (l := text)).length_le
        if isBare c then
          match bareValue? (c :: text.takeWhile isBare) with
          | none => none
          | some value => (lexemes? (text.dropWhile isBare)).map (.scalar value :: ·)
        else none
termination_by text.length

/-! ### Values -/

/-- An array or object that is still open, with what it holds so far, last one
first. An object also has the key that was read last. -/
inductive Open where
  | array (items : List Json)
  | object (entries : List (String × Json)) (key : String)

/-- What may come next. -/
inductive Expected where
  /-- A value. -/
  | value
  /-- A value, or the end of an array that was just opened. -/
  | firstItem
  /-- A key, or the end of an object that was just opened. -/
  | firstKey
  /-- A key. -/
  | key
  /-- The colon after a key. -/
  | colon
  /-- A comma or the end of the innermost array or object; this value is its
  last one. -/
  | after (value : Json)

/-- A reader: the open arrays and objects, the innermost one first, and what may
come next. -/
structure Reader where
  stack : List Open
  expected : Expected

/-- Start a value; at most `limit` arrays and objects may be open at once. -/
def Reader.start (limit : Nat) (stack : List Open) : Lexeme → Option Reader
  | .scalar value => some ⟨stack, .after value⟩
  | .openArray =>
    if stack.length < limit then some ⟨.array [] :: stack, .firstItem⟩ else none
  | .openObject =>
    if stack.length < limit then some ⟨.object [] "" :: stack, .firstKey⟩ else none
  | _ => none

/-- Read one lexeme. -/
def Reader.step (limit : Nat) (reader : Reader) (lexeme : Lexeme) : Option Reader :=
  match reader.expected, reader.stack, lexeme with
  | .firstItem, _ :: stack, .closeArray => some ⟨stack, .after (.array [])⟩
  | .value, stack, _ | .firstItem, stack, _ => Reader.start limit stack lexeme
  | .firstKey, _ :: stack, .closeObject => some ⟨stack, .after (.object [])⟩
  | .firstKey, .object entries _ :: stack, .scalar (.string key)
  | .key, .object entries _ :: stack, .scalar (.string key) =>
    some ⟨.object entries key :: stack, .colon⟩
  | .colon, stack, .colon => some ⟨stack, .value⟩
  | .after value, .array items :: stack, .comma =>
    some ⟨.array (value :: items) :: stack, .value⟩
  | .after value, .array items :: stack, .closeArray =>
    some ⟨stack, .after (.array (value :: items).reverse)⟩
  | .after value, .object entries key :: stack, .comma =>
    some ⟨.object ((key, value) :: entries) "" :: stack, .key⟩
  | .after value, .object entries key :: stack, .closeObject =>
    some ⟨stack, .after (.object ((key, value) :: entries).reverse)⟩
  | _, _, _ => none

/-- The value of a text that opens at most `limit` arrays and objects at once, with
repeated keys as they stand. -/
def parseRaw (limit : Nat) (text : String) : Option Json := do
  let lexemes ← lexemes? text.toList
  let reader ← lexemes.foldlM (Reader.step limit) ⟨[], .value⟩
  match reader with
  | ⟨[], .after value⟩ => some value
  | _ => none

/-- The nesting that texts from outside may have. -/
def nestingLimit : Nat := 127

/-- The value of a text, a repeated key at its first place with its last value. -/
def parse (text : String) : Option Json :=
  (parseRaw nestingLimit text).map settle

end Json

end FieldSelection
