import FieldSelection.Proofs.Level.Origins

/-!
What a selection is warned about.

There are two reasons for a warning: a parenthesis that does not match, and a relation that is
nested too deeply. The first is seen at the root already, since all bodies that a balanced
selection leads to are balanced; bodies that are never read do not matter.

* `Note.severity_eq_warning_iff`: the two reasons.
* `Compiler.exists_isUnmatched_iff`: a parenthesis is noted exactly if the selection is not
  balanced.
* `Compiler.CutsOff`: the limit cuts relations off where a level as deep as the limit asks for
  some; `Compiler.exists_isTooDeep_iff` finds the notes about them.
* `warnings_iff`: so the selections with warnings are those that are not balanced or cut off.
-/

namespace FieldSelection

open FieldSelection.Selection

/-! ### Kinds of warnings -/

/-- Whether a note is about a parenthesis that does not match. -/
def Note.isUnmatched (note : Note) : Bool :=
  match note.cause with
  | .unmatchedOpen | .strayClose => true
  | _ => false

lemma Note.isTooDeep_iff {note : Note} :
    note.isTooDeep = true ↔ ∃ name limit, note.cause = .tooDeep name limit := by
  obtain ⟨cause, path, span⟩ := note
  cases cause <;> simp [isTooDeep]

/-- A warning is about a parenthesis or about nesting. -/
lemma Note.severity_eq_warning_iff {note : Note} :
    note.severity = .warning ↔ note.isUnmatched = true ∨ note.isTooDeep = true := by
  obtain ⟨cause, path, span⟩ := note
  cases cause <;> simp [severity, isUnmatched, isTooDeep]

namespace Place

variable {place : Place}

lemma isUnmatched_issueNote (base : Nat) (issue : Issue) :
    (place.issueNote base issue).isUnmatched = true := by
  cases issue <;> rfl

lemma isTooDeep_issueNote (base : Nat) (issue : Issue) :
    (place.issueNote base issue).isTooDeep = false := by
  cases issue <;> rfl

/-- A token is noted for its name only. -/
lemma no_warning_of_tokenNote? {keysMode : Bool} {base : Nat} {token : LocatedToken} {note : Note}
    (h : place.tokenNote? keysMode base token = some note) :
    note.isUnmatched = false ∧ note.isTooDeep = false := by
  obtain ⟨cause, hcause, rfl⟩ := Option.map_eq_some_iff.mp h
  rcases cause_of_tokenCause? hcause with ⟨name, -, rfl | rfl⟩ | ⟨name, value, -, rfl⟩ <;>
    exact ⟨rfl, rfl⟩

/-- A relation that is not known is noted for its name only. -/
lemma no_warning_missingCause (name path : String) (span : Span) :
    (⟨place.missingCause name, path, span⟩ : Note).isUnmatched = false ∧
      (⟨place.missingCause name, path, span⟩ : Note).isTooDeep = false := by
  rcases place.missingCause_eq name with h | h <;> rw [h] <;> exact ⟨rfl, rfl⟩

variable {options : CompileOptions} {left : Nat} {segments : List Segment} {note : Note}

/-- About the level of balanced bodies, no parenthesis is noted. -/
lemma Noted.isUnmatched_eq_false (h : place.Noted options left segments note)
    (hbalanced : ∀ segment ∈ segments, Balanced segment.text.toList) :
    note.isUnmatched = false := by
  cases h with
  | scanned h =>
      obtain ⟨segment, hsegment, ⟨issue, hissue, -⟩ | ⟨token, -, htoken⟩⟩ := mem_scanNotes.mp h
      · rw [(hbalanced segment hsegment).issues_eq_nil] at hissue
        cases hissue
      · exact (no_warning_of_tokenNote? htoken).1
  | missing _ _ _ => exact (no_warning_missingCause _ _ _).1
  | tooDeep _ _ => rfl
  | walkedTooDeep _ _ => rfl

/-- About a level, nesting is noted only if no level may follow, and only of relations that it asks
for. -/
lemma Noted.of_tooDeep {name : String} {limit : Nat}
    (h : place.Noted options left segments note) (hcause : note.cause = .tooDeep name limit) :
    left = 0 ∧ name ∈ place.asksFor options.includeKeys segments ∧ limit = options.maxDepth ∧
      note.path = place.displayPath := by
  have hdeep : note.isTooDeep = true := by rw [Note.isTooDeep, hcause]
  cases h with
  | scanned h =>
      obtain ⟨segment, -, ⟨issue, -, rfl⟩ | ⟨token, -, htoken⟩⟩ := mem_scanNotes.mp h
      · rw [isTooDeep_issueNote] at hdeep
        cases hdeep
      · rw [(no_warning_of_tokenNote? htoken).2] at hdeep
        cases hdeep
  | missing _ _ _ =>
      rw [(no_warning_missingCause _ _ _).2] at hdeep
      cases hdeep
  | @tooDeep relation hleft hrelation =>
      cases hcause
      exact ⟨hleft, List.mem_append_left _ (List.mem_map_of_mem hrelation), rfl, rfl⟩
  | @walkedTooDeep name hleft hname =>
      cases hcause
      exact ⟨hleft, List.mem_append_right _ hname, rfl, rfl⟩

/-- The other way round, every relation that a level asks for is noted if no level may follow. -/
lemma exists_noted_isTooDeep (h : place.asksFor options.includeKeys segments ≠ []) :
    ∃ note, place.Noted options 0 segments note ∧ note.isTooDeep = true := by
  obtain ⟨name, hname⟩ := List.exists_mem_of_ne_nil _ h
  rcases List.mem_append.mp hname with hnamed | hwalked
  · obtain ⟨relation, hrelation, -⟩ := List.mem_map.mp hnamed
    exact ⟨_, .tooDeep rfl hrelation, rfl⟩
  · exact ⟨_, .walkedTooDeep rfl hwalked, rfl⟩

end Place

/-! ### Whole selections -/

namespace Compiler

variable {compiler : Compiler} {query : Query}

/-- **A parenthesis is noted** exactly if the selection is not balanced. -/
lemma exists_isUnmatched_iff :
    (∃ note ∈ compiler.notes query, note.isUnmatched = true) ↔
      ¬ Balanced (compiler.selection query).toList := by
  constructor
  · rintro ⟨note, hnote, hunmatched⟩ hbalanced
    obtain ⟨path, place, bodies, left, hdescends, -, hnoted⟩ := mem_notes_iff.mp hnote
    have hbodies := hdescends.forall_segments (P := fun segment => Balanced segment.text.toList)
      (fun segment h mention => Mention.balanced_segment h) (by decide)
      (by simpa [segments] using hbalanced)
    rw [hnoted.isUnmatched_eq_false hbodies] at hunmatched
    cases hunmatched
  · intro hbalanced
    obtain ⟨issue, hissue⟩ := List.exists_mem_of_ne_nil _ (mt issues_eq_nil_iff.mp hbalanced)
    have hscan : compiler.root.issueNote 0 issue
        ∈ compiler.root.scanNotes compiler.options.includeKeys (compiler.segments query) :=
      Place.mem_scanNotes.mpr ⟨_, List.mem_singleton_self _, Or.inl ⟨issue, hissue, rfl⟩⟩
    refine ⟨compiler.root.issueNote 0 issue, mem_notes_iff.mpr ?_,
      Place.isUnmatched_issueNote 0 issue⟩
    exact ⟨[], compiler.root, compiler.segments query, compiler.options.maxDepth, .here _ _,
      Nat.zero_add _, .scanned hscan⟩

/-- **The nesting limit cuts relations off** where the selection leads to a level as deep as the
limit that asks for relations, by name or by `all`. -/
def CutsOff (compiler : Compiler) (query : Query) : Prop :=
  ∃ path place bodies, compiler.Descends query path place bodies ∧
    path.length = compiler.options.maxDepth ∧
    place.asksFor compiler.options.includeKeys bodies ≠ []

/-- **Nesting is noted** exactly if the limit cuts relations off. -/
lemma exists_isTooDeep_iff :
    (∃ note ∈ compiler.notes query, note.isTooDeep = true) ↔ compiler.CutsOff query := by
  constructor
  · rintro ⟨note, hnote, hdeep⟩
    obtain ⟨path, place, bodies, left, hdescends, hlength, hnoted⟩ := mem_notes_iff.mp hnote
    obtain ⟨name, limit, hcause⟩ := Note.isTooDeep_iff.mp hdeep
    obtain ⟨rfl, hasked, -, -⟩ := hnoted.of_tooDeep hcause
    exact ⟨path, place, bodies, hdescends, hlength, List.ne_nil_of_mem hasked⟩
  · rintro ⟨path, place, bodies, hdescends, hlength, hasked⟩
    obtain ⟨note, hnoted, hdeep⟩ := Place.exists_noted_isTooDeep hasked
    exact ⟨note, mem_notes_iff.mpr ⟨path, place, bodies, 0, hdescends, hlength, hnoted⟩, hdeep⟩

lemma mem_warnings {note : Note} :
    note ∈ compiler.warnings query ↔
      note ∈ compiler.notes query ∧ (note.isUnmatched = true ∨ note.isTooDeep = true) := by
  rw [warnings, List.mem_filter, decide_eq_true_eq, Note.severity_eq_warning_iff]

end Compiler

/-- **Malformed nesting is warned about** whenever it is there, and only then: a parenthesis that
does not match is among the warnings exactly if the selection is not balanced. So there are
warnings exactly if the selection is not balanced or the nesting limit cuts relations off. -/
theorem warnings_iff (compiler : Compiler) (query : Query) :
    ((∃ note ∈ compiler.warnings query, note.cause = .unmatchedOpen ∨ note.cause = .strayClose) ↔
        ¬ Balanced (compiler.selection query).toList) ∧
      (compiler.warnings query ≠ [] ↔
        ¬ Balanced (compiler.selection query).toList ∨ compiler.CutsOff query) := by
  have hcause : ∀ note : Note,
      note.isUnmatched = true ↔ note.cause = .unmatchedOpen ∨ note.cause = .strayClose := by
    rintro ⟨cause, path, span⟩
    cases cause <;> simp [Note.isUnmatched]
  simp only [← hcause]
  constructor
  · rw [← Compiler.exists_isUnmatched_iff]
    refine exists_congr fun note => and_congr_left fun hunmatched => ?_
    rw [Compiler.mem_warnings, and_iff_left (Or.inl hunmatched)]
  · have hsome : compiler.warnings query ≠ [] ↔ ∃ note, note ∈ compiler.warnings query :=
      ⟨List.exists_mem_of_ne_nil _, fun ⟨_, hnote⟩ => List.ne_nil_of_mem hnote⟩
    rw [hsome, ← Compiler.exists_isUnmatched_iff, ← Compiler.exists_isTooDeep_iff, ← exists_or]
    refine exists_congr fun note => ?_
    rw [Compiler.mem_warnings, and_or_left]

end FieldSelection
