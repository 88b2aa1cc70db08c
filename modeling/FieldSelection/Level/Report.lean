import FieldSelection.Level.Compile
import FieldSelection.Log

/-!
Reports: compiling a level while diagnostics and events are written down.

A compilation keeps two lists, the diagnostics for the caller and the events for the log.
They are written one at a time and independently of each other: each place that has
something to tell traces an event and files a diagnostic, each in its own words.

* `Reporting`: what is computed while a report is written; `Reporting.trace` and
  `Reporting.diagnose` write to it.
* `Place.read`: the request of the bodies of a level.
* `Place.build`: the descriptor of a level and of all levels below it.
-/

namespace FieldSelection

open FieldSelection.Selection

/-- What the caller is told about a part of a selection. -/
structure Diagnostic where
  severity : Severity
  span : Span
  message : String
  deriving DecidableEq, Repr

/-- What was told during a compilation, in order. -/
structure Report where
  diagnostics : List Diagnostic := []
  events : List Event := []
  deriving DecidableEq, Repr

/-- Something that is computed while a report is written. -/
abbrev Reporting := StateM Report

namespace Reporting

/-- Write an event. -/
def trace (level : LogLevel) (fields : List (String × String)) (message : String) :
    Reporting Unit :=
  modify fun report =>
    { report with events := report.events ++ [⟨level, fields ++ [("message", message)]⟩] }

/-- Write a diagnostic. -/
def diagnose (severity : Severity) (span : Span) (message : String) : Reporting Unit :=
  modify fun report =>
    { report with diagnostics := report.diagnostics ++ [⟨severity, span, message⟩] }

end Reporting

open Note Reporting

namespace Place

/-! ### What there is to tell -/

/-- Tell about a parenthesis that does not match, in a body that starts at `base`. -/
def tellIssue (place : Place) (base : Nat) : Issue → Reporting Unit
  | .unmatchedOpen offset => do
    trace .warn [("path", place.displayPath), ("offset", toString (base + offset))]
      "unmatched '('"
    diagnose .warning ⟨base + offset, base + offset + 1⟩
      ("unmatched '(' under " ++ place.displayPath ++
        "; the rest of the selection is read as its body")
  | .strayClose offset => do
    trace .warn [("path", place.displayPath), ("offset", toString (base + offset))]
      "stray ')'"
    diagnose .warning ⟨base + offset, base + offset + 1⟩
      ("stray ')' under " ++ place.displayPath)

/-- Tell that a name is no field. -/
def tellDropped (place : Place) (name : String) (span : Span) : Reporting Unit := do
  let message :=
    if place.shape.any fun shape => (shape.relation? name).isSome then
      quote name ++ " is a relation; select it with '" ++ name ++ "(...)'"
    else "unknown field " ++ quote name ++ " under " ++ place.displayPath ++ " dropped"
  trace .debug [("field", name), ("path", place.displayPath)] message
  diagnose .info span message

/-- Tell that a filter counts in keys mode only. -/
def tellIgnored (place : Place) (name : String) (span : Span) : Reporting Unit := do
  trace .debug [("field", name), ("path", place.displayPath)]
    "inline filter ignored outside keys mode"
  diagnose .info span ("inline filter on " ++ quote name ++ " ignored: keys mode is off")

/-- Tell that a relation is nested too deeply. -/
def tellTooDeep (place : Place) (limit : Nat) (name : String) (span : Span) :
    Reporting Unit := do
  trace .warn
    [("relation", name), ("path", place.displayPath), ("max_depth", toString limit)]
    "relation nested too deeply, dropped"
  diagnose .warning span
    ("relation " ++ quote name ++ " under " ++ place.displayPath ++
      " exceeds the maximum nesting depth of " ++ toString limit)

/-- Tell that a name is no relation. -/
def tellMissing (place : Place) (name : String) (span : Span) : Reporting Unit := do
  let message :=
    if place.shape.any fun shape => (shape.marker? name).isSome then
      quote name ++ " is a field and takes no sub-selection"
    else "unknown relation " ++ quote name ++ " under " ++ place.displayPath ++ " dropped"
  trace .debug [("relation", name), ("path", place.displayPath)] message
  diagnose .info span message

/-! ### Reading bodies -/

/-- Read one token of a body that starts at `base`. -/
def readToken (place : Place) (keysMode : Bool) (base : Nat) (request : Request)
    (token : LocatedToken) : Reporting Request := do
  let span := token.span.shift base
  match token.token with
  | .all => return { request with all := true }
  | .field name =>
    if place.hasField name then return request.withField name
    place.tellDropped name span
    return request
  | .except name =>
    if place.hasField name then return request.withoutField name
    if (place.enter? name).isSome then return request.withoutRelation name
    place.tellDropped name span
    return request
  | .filter name value =>
    if !place.hasField name then
      place.tellDropped name span
      return request
    if keysMode then return (request.withFilter name value).withField name
    place.tellIgnored name span
    return request.withField name
  | .relation name body => return request.withRelation name ⟨body, bodyStart base token⟩

/-- Read one body: the parentheses that do not match, then the tokens. -/
def readSegment (place : Place) (keysMode : Bool) (request : Request) (segment : Segment) :
    Reporting Request := do
  let scan := tokenize segment.text.toList
  scan.issues.forM (place.tellIssue segment.offset)
  scan.tokens.foldlM (place.readToken keysMode segment.offset) request

/-- Read the bodies of a level. -/
def read (place : Place) (keysMode : Bool) (segments : List Segment) : Reporting Request :=
  segments.foldlM (place.readSegment keysMode) {}

/-! ### Building levels -/

/-- Build the descriptor of a level and of the levels below it; `room` is the number of
levels that may follow. -/
def build (options : CompileOptions) (query : Query) :
    (room : Nat) → Place → Request → Reporting Descriptor
  | 0, place, request => do
    request.relations.forM fun relation =>
      place.tellTooDeep options.maxDepth relation.name relation.span
    (place.walked request).forM fun name =>
      place.tellTooDeep options.maxDepth name ⟨0, 0⟩
    return place.level options query request []
  | room + 1, place, request => do
    let named ← request.relations.filterMapM fun relation => do
      match place.enter? relation.name with
      | none =>
        place.tellMissing relation.name relation.span
        return none
      | some next =>
        let below ← next.read options.includeKeys relation.segments
        let child ← build options query room next below
        return some (child.under relation.name)
    let walked ← (place.walked request).filterMapM fun name => do
      match place.enter? name with
      | none => return none
      | some next =>
        let child ← build options query room next .everything
        return some (child.under name)
    return place.level options query request (named ++ walked)

end Place

end FieldSelection
