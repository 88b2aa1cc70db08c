import FieldSelection.Level.Request

/-!
Notes: what a compilation noticed about the selection.

A note has a cause, the path of its level and a stretch of the selection text.
Malformed or cut selections are warnings, parts without effect are information.

* `Note.severity`, `Note.message`: the note as a diagnostic.
* `Place.scanNotes`: the notes about the tokens of a level.
-/

namespace FieldSelection

open FieldSelection.Selection

/-- What a note is about. -/
inductive Cause where
  /-- A parenthesis that nothing closes. -/
  | unmatchedOpen
  /-- A parenthesis that closes nothing. -/
  | strayClose
  /-- A name that is no field. -/
  | unknownField (name : String)
  /-- A relation that was written like a field. -/
  | relationAsField (name : String)
  /-- A filter outside keys mode. -/
  | filterIgnored (name : String)
  /-- A relation below the nesting limit. -/
  | tooDeep (name : String) (limit : Nat)
  /-- A field that was written like a relation. -/
  | fieldAsRelation (name : String)
  /-- A name that is no relation. -/
  | unknownRelation (name : String)
  deriving DecidableEq, Repr

/-- Something that was noticed. -/
structure Note where
  cause : Cause
  /-- The path of the level, as it stands in messages. -/
  path : String
  span : Span
  deriving DecidableEq, Repr

/-- How serious a note is. -/
inductive Severity where
  /-- The selection is malformed or was cut short. -/
  | warning
  /-- A part of the selection has no effect. -/
  | info
  deriving DecidableEq, Repr

/-- The word for a severity. -/
def Severity.word : Severity → String
  | .warning => "warning"
  | .info => "info"

namespace Note

/-- How serious a note is. -/
def severity (note : Note) : Severity :=
  match note.cause with
  | .unmatchedOpen | .strayClose | .tooDeep _ _ => .warning
  | _ => .info

/-- A name in single quotes. -/
def quote (name : String) : String :=
  "'" ++ name ++ "'"

/-- The message of a note. -/
def message (note : Note) : String :=
  match note.cause with
  | .unmatchedOpen =>
    "unmatched '(' under " ++ note.path ++
      "; the rest of the selection is read as its body"
  | .strayClose => "stray ')' under " ++ note.path
  | .unknownField name => "unknown field " ++ quote name ++ " under " ++ note.path ++ " dropped"
  | .relationAsField name =>
    quote name ++ " is a relation; select it with '" ++ name ++ "(...)'"
  | .filterIgnored name =>
    "inline filter on " ++ quote name ++ " ignored: keys mode is off"
  | .tooDeep name limit =>
    "relation " ++ quote name ++ " under " ++ note.path ++
      " exceeds the maximum nesting depth of " ++ toString limit
  | .fieldAsRelation name => quote name ++ " is a field and takes no sub-selection"
  | .unknownRelation name =>
    "unknown relation " ++ quote name ++ " under " ++ note.path ++ " dropped"

/-- A note on one line. -/
def display (note : Note) : String :=
  note.severity.word ++ ": " ++ note.message ++ " (at " ++ note.span.text ++ ")"

end Note

/-! ### Notes about tokens -/

/-- The note about a parenthesis that does not match, in a body that starts at
`base`. -/
def Place.issueNote (place : Place) (base : Nat) (issue : Issue) : Note :=
  match issue with
  | .unmatchedOpen offset =>
    ⟨.unmatchedOpen, place.displayPath, ⟨base + offset, base + offset + 1⟩⟩
  | .strayClose offset =>
    ⟨.strayClose, place.displayPath, ⟨base + offset, base + offset + 1⟩⟩

/-- The cause for dropping a name that is no field. -/
def Place.dropCause (place : Place) (name : String) : Cause :=
  if place.shape.any fun shape => (shape.relation? name).isSome then .relationAsField name
  else .unknownField name

/-- The cause of the note about one token, if there is one. -/
def Place.tokenCause? (place : Place) (keysMode : Bool) (token : Token) : Option Cause :=
  match token with
  | .all | .relation _ _ => none
  | .field name => if place.hasField name then none else some (place.dropCause name)
  | .except name =>
    if place.hasField name || (place.enter? name).isSome then none
    else some (place.dropCause name)
  | .filter name _ =>
    if !place.hasField name then some (place.dropCause name)
    else if keysMode then none
    else some (.filterIgnored name)

/-- The note about one token in a body that starts at `base`. -/
def Place.tokenNote? (place : Place) (keysMode : Bool) (base : Nat) (token : LocatedToken) :
    Option Note :=
  (place.tokenCause? keysMode token.token).map
    (⟨·, place.displayPath, token.span.shift base⟩)

/-- The notes about one body: the parentheses that do not match, then the
tokens. -/
def Place.segmentNotes (place : Place) (keysMode : Bool) (segment : Segment) : List Note :=
  let scan := tokenize segment.text.toList
  scan.issues.map (place.issueNote segment.offset) ++
    scan.tokens.filterMap (place.tokenNote? keysMode segment.offset)

/-- The notes about the bodies of a level. -/
def Place.scanNotes (place : Place) (keysMode : Bool) (segments : List Segment) : List Note :=
  segments.flatMap (place.segmentNotes keysMode)

/-- The cause for dropping a relation that the place does not know. -/
def Place.missingCause (place : Place) (name : String) : Cause :=
  if place.shape.any fun shape => (shape.marker? name).isSome then .fieldAsRelation name
  else .unknownRelation name

/-- The stretch of a relation that was named: its first body. -/
def RelationRequest.span (relation : RelationRequest) : Span :=
  match relation.segments with
  | [] => ⟨0, 0⟩
  | segment :: _ => ⟨segment.offset, segment.offset + segment.text.utf8ByteSize⟩

end FieldSelection
