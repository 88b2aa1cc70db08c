import Mathlib.Data.List.Basic
import FieldSelection.Level.Report

/-!
What building a level reports is what is noted about it.

Every note has an event and a diagnostic. A step of a compilation `Tells` notes if it
writes the events and the diagnostics of these notes, one after the other, and nothing
else, whatever was written before. Steps in a row tell their notes in a row, so a list of
steps tells the notes of its members in order; what is left are the places that have
something to tell.

* `Note.diagnostic`, `Note.event`: a note as it is reported.
* `Tells`, `Tells.bind`, `Tells.forM`, `Tells.foldlM`, `Tells.filterMapM`: notes that
  steps tell.
* `Place.tells_read`: reading bodies tells the notes about their tokens.
* `Place.tells_build`: building a level tells the notes below it.
-/

namespace FieldSelection

open FieldSelection.Selection

/-- The level at which a diagnostic is logged. -/
def Severity.logLevel : Severity → LogLevel
  | .warning => .warn
  | .info => .debug

namespace Note

/-- A note as the caller is told. -/
def diagnostic (note : Note) : Diagnostic :=
  ⟨note.severity, note.span, note.message⟩

/-- The fields of the event of a note, without the message. -/
def eventFields (note : Note) : List (String × String) :=
  match note.cause with
  | .unmatchedOpen | .strayClose =>
    [("path", note.path), ("offset", toString note.span.start)]
  | .unknownField name | .relationAsField name | .filterIgnored name =>
    [("field", name), ("path", note.path)]
  | .tooDeep name limit =>
    [("relation", name), ("path", note.path), ("max_depth", toString limit)]
  | .fieldAsRelation name | .unknownRelation name =>
    [("relation", name), ("path", note.path)]

/-- The message of the event of a note. It is the one of the diagnostic where a name is
dropped, and a shorter one elsewhere. -/
def eventMessage (note : Note) : String :=
  match note.cause with
  | .unmatchedOpen => "unmatched '('"
  | .strayClose => "stray ')'"
  | .filterIgnored _ => "inline filter ignored outside keys mode"
  | .tooDeep _ _ => "relation nested too deeply, dropped"
  | _ => note.message

/-- A note as it is logged. -/
def event (note : Note) : Event :=
  ⟨note.severity.logLevel, note.eventFields ++ [("message", note.eventMessage)]⟩

lemma level_event (note : Note) : note.event.level = note.severity.logLevel :=
  rfl

end Note

/-! ### Steps and the notes that they tell -/

namespace Report

/-- A report with notes added at its end. -/
def add (report : Report) (notes : List Note) : Report :=
  ⟨report.diagnostics ++ notes.map Note.diagnostic, report.events ++ notes.map Note.event⟩

@[simp] lemma add_nil (report : Report) : report.add [] = report := by
  simp [add]

@[simp] lemma add_add (report : Report) (notes more : List Note) :
    (report.add notes).add more = report.add (notes ++ more) := by
  simp [add]

end Report

/-- A step of a compilation gives a value and adds notes to the report, whatever the report
was before. -/
def Tells {α : Type} (step : Reporting α) (value : α) (notes : List Note) : Prop :=
  ∀ report : Report, step report = (value, report.add notes)

namespace Tells

variable {α β : Type} {notes more : List Note}

lemma pure (value : α) : Tells (Pure.pure value) value [] := by
  intro report
  rw [Report.add_nil]
  rfl

/-- **Steps in a row** tell their notes in a row. -/
lemma bind {step : Reporting α} {next : α → Reporting β} {value : α} {result : β}
    (h : Tells step value notes) (hnext : Tells (next value) result more) :
    Tells (step >>= next) result (notes ++ more) := by
  intro report
  calc (step >>= next) report = next (step report).1 (step report).2 := rfl
    _ = next value (report.add notes) := by rw [h]
    _ = (result, report.add (notes ++ more)) := by rw [hnext, Report.add_add]

/-- A step that goes on with what tells nothing. -/
lemma bind_pure {step : Reporting α} {value : α} (h : Tells step value notes) (f : α → β) :
    Tells (step >>= fun value => Pure.pure (f value)) (f value) notes := by
  rw [← List.append_nil notes]
  exact h.bind (pure (f value))

/-- An event and a diagnostic that belong to one note tell this note. -/
lemma report {level : LogLevel} {fields : List (String × String)} {text message : String}
    {severity : Severity} {span : Span} {note : Note}
    (hevent : note.event = ⟨level, fields ++ [("message", text)]⟩)
    (hdiagnostic : note.diagnostic = ⟨severity, span, message⟩) :
    Tells (do Reporting.trace level fields text; Reporting.diagnose severity span message)
      () [note] := by
  intro report
  rw [Report.add, List.map_singleton, List.map_singleton, hevent, hdiagnostic]
  rfl

/-- **A loop** tells the notes of its rounds in order. -/
lemma forM {step : α → Reporting PUnit} {told : α → List Note}
    (h : ∀ x, Tells (step x) () (told x)) (list : List α) :
    Tells (list.forM step) () (list.flatMap told) := by
  induction list with
  | nil => exact pure ()
  | cons x list ih =>
      rw [List.flatMap_cons]
      exact (h x).bind ih

/-- **A fold** tells the notes of its members in order, if what they tell does not depend on
the state. -/
lemma foldlM {step : β → α → Reporting β} {next : β → α → β} {told : α → List Note}
    (h : ∀ state x, Tells (step state x) (next state x) (told x)) (list : List α) (state : β) :
    Tells (list.foldlM step state) (list.foldl next state) (list.flatMap told) := by
  induction list generalizing state with
  | nil => exact pure state
  | cons x list ih =>
      rw [List.foldlM_cons, List.foldl_cons, List.flatMap_cons]
      exact (h state x).bind (ih (next state x))

/-- **A filter** tells the notes of its members in order, those of the members that it drops
as well. -/
lemma filterMapM {step : α → Reporting (Option β)} {keep : α → Option β}
    {told : α → List Note} (h : ∀ x, Tells (step x) (keep x) (told x)) (list : List α) :
    Tells (list.filterMapM step) (list.filterMap keep) (list.flatMap told) := by
  induction list with
  | nil => exact pure []
  | cons x list ih =>
      rw [List.filterMapM_cons, List.filterMap_cons, List.flatMap_cons]
      refine (h x).bind ?_
      cases keep x with
      | none => exact ih
      | some y => exact ih.bind_pure (y :: ·)

end Tells

/-! ### The places that have something to tell -/

namespace Place

variable (place : Place)

lemma tells_tellIssue (base : Nat) (issue : Issue) :
    Tells (place.tellIssue base issue) () [place.issueNote base issue] := by
  cases issue with
  | unmatchedOpen offset => exact Tells.report rfl rfl
  | strayClose offset => exact Tells.report rfl rfl

lemma tells_tellDropped (name : String) (span : Span) :
    Tells (place.tellDropped name span) ()
      [⟨place.dropCause name, place.displayPath, span⟩] := by
  rw [tellDropped, dropCause]
  split
  · exact Tells.report rfl rfl
  · exact Tells.report rfl rfl

lemma tells_tellIgnored (name : String) (span : Span) :
    Tells (place.tellIgnored name span) ()
      [⟨.filterIgnored name, place.displayPath, span⟩] :=
  Tells.report rfl rfl

lemma tells_tellTooDeep (limit : Nat) (name : String) (span : Span) :
    Tells (place.tellTooDeep limit name span) ()
      [⟨.tooDeep name limit, place.displayPath, span⟩] :=
  Tells.report rfl rfl

lemma tells_tellMissing (name : String) (span : Span) :
    Tells (place.tellMissing name span) ()
      [⟨place.missingCause name, place.displayPath, span⟩] := by
  rw [tellMissing, missingCause]
  split
  · exact Tells.report rfl rfl
  · exact Tells.report rfl rfl

/-! ### Reading bodies -/

/-- **One token** tells the note about it, if there is one. -/
lemma tells_readToken (keysMode : Bool) (base : Nat) (request : Request)
    (token : LocatedToken) :
    Tells (place.readToken keysMode base request token)
      (Request.add place keysMode base request token)
      (place.tokenNote? keysMode base token).toList := by
  obtain ⟨token, span, bodyOffset⟩ := token
  cases token with
  | all => exact Tells.pure _
  | field name =>
      simp only [readToken, Request.add, tokenNote?, tokenCause?]
      split
      · exact Tells.pure _
      · exact (place.tells_tellDropped name _).bind (Tells.pure _)
  | except name =>
      simp only [readToken, Request.add, tokenNote?, tokenCause?]
      by_cases hfield : place.hasField name
      · simp only [hfield]
        exact Tells.pure _
      · by_cases hrelation : (place.enter? name).isSome
        · simp only [hfield, hrelation]
          exact Tells.pure _
        · simp only [hfield, hrelation]
          exact (place.tells_tellDropped name _).bind (Tells.pure _)
  | filter name value =>
      simp only [readToken, Request.add, tokenNote?, tokenCause?]
      cases hfield : place.hasField name with
      | false => exact (place.tells_tellDropped name _).bind (Tells.pure _)
      | true =>
          cases keysMode with
          | false => exact (place.tells_tellIgnored name _).bind (Tells.pure _)
          | true => exact Tells.pure _
  | relation name body => exact Tells.pure _

lemma tells_readSegment (keysMode : Bool) (request : Request) (segment : Segment) :
    Tells (place.readSegment keysMode request segment)
      (Request.addSegment place keysMode request segment)
      (place.segmentNotes keysMode segment) := by
  have hissues := Tells.forM (place.tells_tellIssue segment.offset)
    (tokenize segment.text.toList).issues
  have htokens := Tells.foldlM (place.tells_readToken keysMode segment.offset)
    (tokenize segment.text.toList).tokens request
  rw [segmentNotes, List.map_eq_flatMap, List.filterMap_eq_flatMap_toList]
  exact hissues.bind htokens

/-- **Reading bodies** gives their request and tells the notes about their tokens. -/
lemma tells_read (keysMode : Bool) (segments : List Segment) :
    Tells (place.read keysMode segments) (place.request keysMode segments)
      (place.scanNotes keysMode segments) :=
  Tells.foldlM (place.tells_readSegment keysMode) segments {}

/-! ### Building levels -/

/-- **Building a level** gives its descriptor and tells the notes below it. -/
lemma tells_build (options : CompileOptions) (query : Query) (room : Nat) (place : Place)
    (request : Request) :
    Tells (build options query room place request)
      (Place.descriptor options query room place request)
      (Place.notes options room place request) := by
  induction room generalizing place request with
  | zero =>
      have hnamed := Tells.forM (fun relation : RelationRequest =>
        place.tells_tellTooDeep options.maxDepth relation.name relation.span) request.relations
      have hwalked := Tells.forM (fun name =>
        place.tells_tellTooDeep options.maxDepth name ⟨0, 0⟩) (place.walked request)
      rw [Place.notes, List.map_eq_flatMap, List.map_eq_flatMap]
      exact hnamed.bind (hwalked.bind_pure _)
  | succ room ih =>
      rw [build, Place.descriptor, Place.notes]
      refine Tells.bind (Tells.filterMapM (fun relation => ?_) _)
        (Tells.bind_pure (Tells.filterMapM (fun name => ?_) _) _)
      · -- a relation that was named: what is read behind it comes before what is below it
        cases place.enter? relation.name with
        | none => exact (place.tells_tellMissing relation.name relation.span).bind_pure _
        | some next =>
            exact (next.tells_read options.includeKeys relation.segments).bind
              ((ih next _).bind_pure _)
      · cases place.enter? name with
        | none => exact Tells.pure none
        | some next => exact (ih next .everything).bind_pure _

end Place

end FieldSelection
