import FieldSelection.Json.Reader
import FieldSelection.Text.Separated

/-!
Scalars of TOML documents that are written without quotes.

They become JSON values: truth values and numbers as they are, and a date or a
time as an object with its text under the key `datetime`. Infinity and what is no
number have no JSON form and become `null`.

* `Toml.scalar?`: the value that a run of characters denotes.
-/

namespace FieldSelection

namespace Toml

open FieldSelection.Text

/-! ### Numbers -/

/-- The digits of a run in which underscores may stand between two digits. -/
def digitRun? (isDigit : Char → Bool) (text : List Char) : Option (List Char) :=
  let parts := split '_' text
  if parts.all fun part => !part.isEmpty && part.all isDigit then some parts.flatten
  else none

/-- The value of digits in a base. -/
def valueIn (base : Nat) (digits : List Char) : Nat :=
  digits.foldl (fun n c => n * base + (Json.hexValue? c).getD 0) 0

/-- A decimal digit run without superfluous zeros in front. -/
def plainRun? (text : List Char) : Option (List Char) :=
  (digitRun? Char.isDigit text).filter fun digits => digits.length = 1 || digits.head? ≠ some '0'

/-- Whether a character is a digit in a base up to sixteen. -/
def isDigitIn (base : Nat) (c : Char) : Bool :=
  (Json.hexValue? c).any (· < base)

/-- A text without a sign, and whether the sign was negative. -/
def signed : List Char → Bool × List Char
  | '-' :: text => (true, text)
  | '+' :: text => (false, text)
  | text => (false, text)

/-- The whole number that a text denotes, in decimal or with the mark of another
base. -/
def integer? : List Char → Option Int
  | '0' :: 'x' :: text => (digitRun? (isDigitIn 16) text).map (valueIn 16 ·)
  | '0' :: 'o' :: text => (digitRun? (isDigitIn 8) text).map (valueIn 8 ·)
  | '0' :: 'b' :: text => (digitRun? (isDigitIn 2) text).map (valueIn 2 ·)
  | text =>
    let (negative, text) := signed text
    (plainRun? text).map fun digits =>
      if negative then -(valueIn 10 digits : Int) else (valueIn 10 digits : Int)

/-- Whole numbers fit in 128 bits, with or without a sign. -/
def fits (n : Int) : Bool :=
  -(power 2 127 : Int) ≤ n && n < power 2 128

/-- The number nearest to a decimal; `none` if it is too large. -/
def nearestDecimal (digits : List Char) (exponent : Int) : Option Binary64 :=
  let n := valueIn 10 digits
  let point : Int := digits.length + exponent
  if n = 0 ∨ point < -400 then some .zero
  else if 400 < point then none
  else Binary64.nearest (n * power 10 exponent) (power 10 (-exponent))

/-- A text up to the first character of some kind, and what follows that
character if there is one. -/
def cutAt (p : Char → Bool) (text : List Char) : List Char × Option (List Char) :=
  match text.dropWhile (!p ·) with
  | [] => (text, none)
  | _ :: rest => (text.takeWhile (!p ·), some rest)

/-- The exponent that a text denotes. -/
def exponent? (text : List Char) : Option Int :=
  let (negative, text) := signed text
  (digitRun? Char.isDigit text).map fun digits =>
    if negative then -(valueIn 10 digits : Int) else (valueIn 10 digits : Int)

/-- The number with a point or an exponent that a text denotes. -/
def float? (text : List Char) : Option Binary64 := do
  let (negative, text) := signed text
  let (mantissa, power) := cutAt (fun c => c = 'e' || c = 'E') text
  let (whole, fraction) := cutAt (· = '.') mantissa
  guard (power.isSome || fraction.isSome)
  let whole ← plainRun? whole
  let fraction ←
    match fraction with
    | some fraction => digitRun? Char.isDigit fraction
    | none => some []
  let exponent ←
    match power with
    | some power => exponent? power
    | none => some 0
  let magnitude ← nearestDecimal (whole ++ fraction) (exponent - fraction.length)
  some (magnitude.withSign negative)

/-- The words for numbers that JSON does not have. -/
def isSpecial (text : List Char) : Bool :=
  let (_, word) := signed text
  word = ['i', 'n', 'f'] || word = ['n', 'a', 'n']

/-! ### Dates and times -/

/-- Exactly `count` decimal digits at the front of a text. -/
def leadingDigits (count : Nat) (text : List Char) : Option (Nat × List Char) :=
  let digits := text.take count
  if digits.length = count && digits.all Char.isDigit then
    some (valueIn 10 digits, text.drop count)
  else none

/-- A character at the front of a text. -/
def expectChar (c : Char) : List Char → Option (List Char)
  | d :: text => if c = d then some text else none
  | [] => none

/-- The number of days of a month. -/
def daysIn (year month : Nat) : Nat :=
  if month = 2 then
    if year % 4 = 0 ∧ (year % 100 ≠ 0 ∨ year % 400 = 0) then 29 else 28
  else if month = 4 ∨ month = 6 ∨ month = 9 ∨ month = 11 then 30
  else 31

/-- What follows a date. -/
def afterDate? (text : List Char) : Option (List Char) := do
  let (year, text) ← leadingDigits 4 text
  let (month, text) ← leadingDigits 2 (← expectChar '-' text)
  let (day, text) ← leadingDigits 2 (← expectChar '-' text)
  guard (1 ≤ month ∧ month ≤ 12 ∧ 1 ≤ day ∧ day ≤ daysIn year month)
  some text

/-- What follows the seconds of a time, if there are any. -/
def afterSeconds? : List Char → Option (List Char)
  | ':' :: text => do
    let (second, text) ← leadingDigits 2 text
    guard (second ≤ 60)
    match text with
    | '.' :: digits =>
      if digits.head?.any Char.isDigit then some (digits.dropWhile Char.isDigit) else none
    | text => some text
  | text => some text

/-- What follows hours and minutes. -/
def afterMinutes? (text : List Char) : Option (List Char) := do
  let (hour, text) ← leadingDigits 2 text
  let (minute, text) ← leadingDigits 2 (← expectChar ':' text)
  guard (hour ≤ 23 ∧ minute ≤ 59)
  some text

/-- What follows a time. -/
def afterTime? (text : List Char) : Option (List Char) :=
  (afterMinutes? text).bind afterSeconds?

/-- Whether a text is an offset from universal time, or nothing. -/
def isOffset : List Char → Bool
  | [] | ['Z'] | ['z'] => true
  | sign :: text => (sign = '+' || sign = '-') && afterMinutes? text == some []

/-- Whether a text is a date, a time, or both. -/
def isDatetime (text : List Char) : Bool :=
  match afterDate? text with
  | some [] => true
  | some (c :: rest) =>
    (c = 'T' || c = 't' || c = ' ') && (afterTime? rest).any isOffset
  | none => afterTime? text == some []

/-! ### Scalars -/

/-- The value that a run of characters without quotes denotes. -/
def scalar? (text : List Char) : Option Json :=
  if text = ['t', 'r', 'u', 'e'] then some (.bool true)
  else if text = ['f', 'a', 'l', 's', 'e'] then some (.bool false)
  else if isSpecial text then some .null
  else if isDatetime text then some (.object [("datetime", .string (.ofList text))])
  else
    match integer? text with
    | some n => if fits n then some (.int n) else none
    | none => (float? text).map fun x => .number (.float x)

end Toml

end FieldSelection
