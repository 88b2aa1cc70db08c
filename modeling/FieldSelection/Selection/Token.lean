import FieldSelection.Selection.Piece
import FieldSelection.Text.Blank
import FieldSelection.Text.Separated

/-!
The tokens of one nesting level of a selection text.

Commas separate tokens, and `name(` opens a relation whose body runs to the
matching `)`:

    title,-price,id=3,author(name,country(all)),all

* `classify`: what a trimmed word means.
* `tokenize`: the tokens of a text with their places, and the places of the
  parentheses that do not match. Neither kind of issue stops the scan.
-/

namespace FieldSelection.Selection

open FieldSelection.Text

/-- A stretch of a text: the bytes from `start` up to `stop`, that one not
included. -/
structure Span where
  start : Nat
  stop : Nat
  deriving DecidableEq, Repr

/-- A span as it stands in messages. -/
def Span.text (span : Span) : String :=
  toString span.start ++ ".." ++ toString span.stop

/-- The same stretch, counted from a point `base` bytes further to the left. -/
def Span.shift (base : Nat) (span : Span) : Span :=
  ⟨base + span.start, base + span.stop⟩

/-- One token of a selection level. -/
inductive Token where
  /-- `all` in any case: every fetchable field of the level. -/
  | all
  /-- `name`. -/
  | field (name : String)
  /-- `-name`. -/
  | except (name : String)
  /-- `name=value`. -/
  | filter (name value : String)
  /-- `name(body)`. -/
  | relation (name body : String)
  deriving DecidableEq, Repr

/-- A token with its place. -/
structure LocatedToken where
  token : Token
  /-- The stretch of the whole token, blanks around it included. -/
  span : Span
  /-- Where the trimmed body of a relation starts. -/
  bodyOffset : Option Nat
  deriving DecidableEq, Repr

/-- A parenthesis that does not match. -/
inductive Issue where
  /-- No `)` closes the `(` at this place; the rest of the text is its body. -/
  | unmatchedOpen (offset : Nat)
  /-- The `)` at this place closes nothing; it stays a part of its word. -/
  | strayClose (offset : Nat)
  deriving DecidableEq, Repr

/-- What a scan of one level finds. -/
structure Scan where
  tokens : List LocatedToken
  issues : List Issue
  deriving DecidableEq, Repr

/-! ### Words and bodies -/

/-- The word `all`, in any mixture of upper and lower case. -/
def isAll (word : List Char) : Bool :=
  word.map Char.toLower == ['a', 'l', 'l']

/-- What a trimmed word means. One leading `-` excludes the name before the first
`=`; a word with exactly one `=` filters; any other word names a field. -/
def classify (word : List Char) : Token :=
  if isAll word then .all
  else
    match word with
    | '-' :: name => .except (.ofList (trim (name.takeWhile (· != '='))))
    | _ =>
      match split '=' word with
      | [name, value] => .filter (.ofList (trim name)) (.ofList (trim value))
      | _ => .field (.ofList word)

/-- The body of a relation without the blanks around it. A blank body reads as
`all`. -/
def bodyText (body : List Char) : String :=
  if trim body = [] then "all" else .ofList (trim body)

/-! ### Pieces with their places -/

/-- The number of bytes that a piece takes in the text. -/
def Piece.size (piece : Piece) : Nat :=
  bytes piece.source

/-- The token of a piece that starts at `offset`. A blank word is no token. -/
def Piece.token? (offset : Nat) : Piece → Option LocatedToken
  | .word text _ =>
    if trim text = [] then none
    else some ⟨classify (trim text), ⟨offset, offset + bytes text⟩, none⟩
  | .relation name body closed =>
    some
      { token := .relation (.ofList (trim name)) (bodyText body)
        span := ⟨offset, offset + (Piece.relation name body closed).size⟩
        bodyOffset := some
          (offset + bytes name + 1 + bytes (body.takeWhile isBlank)) }

/-- The places of the closing parentheses in characters that start at
`offset`. -/
def strayCloses (offset : Nat) : List Char → List Issue
  | [] => []
  | c :: text =>
    if c = ')' then .strayClose offset :: strayCloses (offset + c.utf8Size) text
    else strayCloses (offset + c.utf8Size) text

/-- The issues of a piece that starts at `offset`. -/
def Piece.issues (offset : Nat) : Piece → List Issue
  | .word text _ => strayCloses offset text
  | .relation name _ closed =>
    strayCloses offset name ++
      if closed then [] else [.unmatchedOpen (offset + bytes name)]

/-- The pieces with the places where they start, the first one at `offset`. -/
def locate (offset : Nat) : List Piece → List (Nat × Piece)
  | [] => []
  | piece :: rest => (offset, piece) :: locate (offset + piece.size) rest

/-- Scan one level of a selection text. -/
def tokenize (text : List Char) : Scan :=
  let located := locate 0 (pieces text)
  { tokens := located.filterMap fun (offset, piece) => piece.token? offset
    issues := located.flatMap fun (offset, piece) => piece.issues offset }

end FieldSelection.Selection
