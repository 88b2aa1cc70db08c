import FieldSelection.Compiler
import FieldSelection.Proofs.Level.Report
import Mathlib.Data.List.Forall2

/-!
The diagnostics and the log of a compilation tell the same.

A compilation that is run step by step gives the descriptor of the query and reports its
notes, once as diagnostics and once as events. The only event without a diagnostic is the
one that announces a selection of everything, and it comes first.

* `Compiler.run_eq`: what a run gives and what it reports.
* `Compiler.diagnostics_eq`, `Compiler.log_eq`: the two lists by the notes.
* `Event.Announces`: an event and a diagnostic that tell the same.
* `Compiler.log_announces_diagnostics`: the log and the diagnostics, one by one.
-/

namespace FieldSelection

/-- Whether an event and a diagnostic tell the same: they are those of one note, and the
event is logged at the level of the diagnostic. -/
structure Event.Announces (event : Event) (diagnostic : Diagnostic) : Prop where
  level : event.level = diagnostic.severity.logLevel
  ofNote : ∃ note : Note, event = note.event ∧ diagnostic = note.diagnostic

lemma Note.announces (note : Note) : note.event.Announces note.diagnostic :=
  ⟨rfl, note, rfl, rfl⟩

namespace Compiler

variable (compiler : Compiler) (query : Query)

/-- The event that announces a selection of everything. -/
def everythingEvent : Event :=
  ⟨.debug, [("message", "selection requests every field, walking the shape directly")]⟩

/-- The events that come before all notes. -/
def opening : List Event :=
  if compiler.selectsAll query then [everythingEvent] else []

/-- **A run** gives the descriptor of the query and reports its notes. -/
lemma run_eq :
    StateT.run (compiler.run query) {}
      = (compiler.compile query,
          Report.add ⟨[], compiler.opening query⟩ (compiler.notes query)) := by
  have hbuild (request : Request) := Place.tells_build compiler.options query
    compiler.options.maxDepth compiler.root request
  rw [opening, compile, request, notes, request]
  cases hall : compiler.selectsAll query with
  | true =>
      have hrun : compiler.run query = do
          Reporting.trace .debug [] "selection requests every field, walking the shape directly"
          let level ← Place.build compiler.options query compiler.options.maxDepth compiler.root
            .everything
          return level.withParameters query := by
        simp [run, hall]
      rw [hrun]
      exact (hbuild .everything).bind_pure (·.withParameters query) ⟨[], [everythingEvent]⟩
  | false =>
      have hrun : compiler.run query = do
          let request ← compiler.root.read compiler.options.includeKeys (compiler.segments query)
          let level ← Place.build compiler.options query compiler.options.maxDepth compiler.root
            request
          return level.withParameters query := by
        simp [run, hall]
      rw [hrun]
      have hread := compiler.root.tells_read compiler.options.includeKeys (compiler.segments query)
      exact hread.bind ((hbuild _).bind_pure (·.withParameters query)) {}

lemma report_eq :
    compiler.report query = Report.add ⟨[], compiler.opening query⟩ (compiler.notes query) := by
  rw [report, run_eq]

/-- The diagnostics are the notes as the caller is told. -/
lemma diagnostics_eq :
    compiler.diagnostics query = (compiler.notes query).map Note.diagnostic := by
  rw [diagnostics, report_eq, Report.add, List.nil_append]

/-- The log is the announcement of a selection of everything and the notes as they are
logged. -/
lemma log_eq :
    compiler.log query = compiler.opening query ++ (compiler.notes query).map Note.event := by
  rw [log, report_eq, Report.add]

lemma level_of_mem_log {event : Event} (h : event ∈ compiler.log query) :
    event.level ∈ [LogLevel.debug, .warn] := by
  rw [log_eq, opening, List.mem_append, List.mem_map] at h
  rcases h with h | ⟨note, -, rfl⟩
  · split at h
    · rw [List.mem_singleton.mp h]
      decide
    · cases h
  · rw [note.level_event]
    cases note.severity with
    | warning => decide
    | info => decide

/-- **Diagnostics and log never disagree.** Whatever is compiled, the debug and warning
events, less the one that announces a selection of everything and comes first, are as many
as the diagnostics and stand in the same order: each event announces its diagnostic, a
warning as a warning and an information as a debug event. -/
theorem log_announces_diagnostics :
    ∃ events, (compiler.log query).filter (·.level ∈ [LogLevel.debug, .warn]) =
        (if compiler.selectsAll query then [everythingEvent] else []) ++ events ∧
      List.Forall₂ Event.Announces events (compiler.diagnostics query) ∧
      compiler.diagnostics query = (compiler.notes query).map Note.diagnostic := by
  refine ⟨(compiler.notes query).map Note.event, ?_, ?_, compiler.diagnostics_eq query⟩
  · rw [List.filter_eq_self.mpr fun event h =>
      decide_eq_true (compiler.level_of_mem_log query h)]
    exact compiler.log_eq query
  · rw [diagnostics_eq, List.forall₂_map_left_iff, List.forall₂_map_right_iff]
    exact List.forall₂_same.mpr fun note _ => note.announces

end Compiler

end FieldSelection
