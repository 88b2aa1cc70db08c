import FieldSelection.Proofs.Level.Origins
import FieldSelection.Proofs.Selection.Spans

/-!
Notes point at what they are about.

The bodies of a level are trimmed parts of the bodies above it, so places in them add up to places
in the selection. Only a blank body is read as `all`, which stands nowhere; nothing is noted about
that word itself, but it is what a dropped relation without a body points at.

* `Segment.Located`: a body that stands in the text, or `all`; `Compiler.Descends.located` finds
  all bodies located that a selection leads to.
* `firstMention?`: where a level mentions a relation first; `Place.span_of_mem_relations` ties the
  span of a relation to it.
* `Place.PointsAt`: what stands at the span of a note.
* `notes_pointAt`: every note points at its cause.
* `notes_within`: so every span is one of the selection, unless a relation without a body was
  dropped; `span_outside` is such a relation.
-/

namespace FieldSelection

open FieldSelection.Selection FieldSelection.Text

/-! ### Bodies in the text -/

/-- A body that stands where it starts, or `all` in place of a blank body. -/
def Segment.Located (text : List Char) (segment : Segment) : Prop :=
  segment.text = "all" ∨ Stands text segment.offset segment.text.toList

variable {text : List Char} {segment : Segment} {mention : Mention}

/-- What a body mentions stands in the text: the body `all` mentions nothing. -/
lemma Segment.Located.stands_body (h : segment.Located text)
    (hmention : mention ∈ segment.mentions) : Stands text mention.offset mention.body := by
  rcases h with hall | hstands
  · rw [Segment.mentions, hall] at hmention
    cases hmention
  · obtain ⟨offset, name, body, closed, hlocated, rfl⟩ := Segment.mem_mentions.mp hmention
    have hsource := hstands.trans (stands_of_mem_locate hlocated)
    exact hsource.right.tail.left

namespace Mention

/-- The body that a mention adds is located where the trimmed body stands. -/
lemma located_segment (h : Stands text mention.offset mention.body) :
    mention.segment.Located text := by
  by_cases hblank : trim mention.body = []
  · exact Or.inl (if_pos hblank)
  · refine Or.inr ?_
    rw [segment, bodyText, if_neg hblank, String.toList_ofList]
    exact h.trim

/-- The stretch of the body that a mention adds. -/
def span (mention : Mention) : Span :=
  ⟨mention.segment.offset, mention.segment.offset + mention.segment.text.utf8ByteSize⟩

/-- The stretch of a body that is not blank is that of the trimmed body. -/
lemma holds_span (h : Stands text mention.offset mention.body) (hblank : ¬ IsBlank mention.body) :
    mention.span.Holds text (trim mention.body) := by
  refine ⟨h.trim, ?_⟩
  rw [span, segment, bodyText, if_neg (mt trim_eq_nil_iff.mp hblank), utf8ByteSize_ofList]

/-- The stretch of a blank body starts at its end, and is as long as the word `all`. -/
lemma span_of_isBlank (h : IsBlank mention.body) :
    mention.span
      = ⟨mention.offset + bytes mention.body, mention.offset + bytes mention.body + 3⟩ := by
  rw [span, segment, bodyText, if_pos h.trim_eq_nil, List.takeWhile_eq_self_iff.mpr h]
  rfl

end Mention

/-- The bodies that a selection leads to are located in it. -/
lemma Compiler.Descends.located {compiler : Compiler} {query : Query} {path : List String}
    {place : Place} {bodies : List Segment} (h : compiler.Descends query path place bodies) :
    ∀ segment ∈ bodies, segment.Located (compiler.selection query).toList := by
  refine h.forall_segments (fun segment hsegment mention hmention =>
    Mention.located_segment (hsegment.stands_body hmention)) (Or.inl rfl) fun segment hsegment => ?_
  rw [List.mem_singleton.mp hsegment]
  exact Or.inr (stands_self _)

/-! ### Mentioned relations -/

/-- Where the bodies of a level mention a relation first, if they mention it. -/
def firstMention? (name : String) (bodies : List Segment) : Option Mention :=
  (mentionsIn bodies).find? (·.name = name)

lemma name_firstMention {bodies : List Segment} {name : String} {first : Mention}
    (h : firstMention? name bodies = some first) : first.name = name := by
  have hname := List.find?_some h
  exact of_decide_eq_true hname

lemma stands_firstMention {bodies : List Segment} {name : String} {first : Mention}
    (hbodies : ∀ segment ∈ bodies, segment.Located text)
    (h : firstMention? name bodies = some first) : Stands text first.offset first.body := by
  obtain ⟨segment, hsegment, hmention⟩ := List.mem_flatMap.mp (List.mem_of_find?_eq_some h)
  exact (hbodies segment hsegment).stands_body hmention

namespace Place

variable {place : Place} {keysMode : Bool} {bodies : List Segment}

/-- **The stretch of a relation** is that of the body that it is mentioned with first. -/
lemma span_of_mem_relations {relation : RelationRequest}
    (h : relation ∈ (place.request keysMode bodies).relations) :
    ∃ first, firstMention? relation.name bodies = some first ∧ relation.span = first.span := by
  obtain ⟨hname, hsegments⟩ := mem_relations_request.mp h
  rw [segmentsBelow, if_pos hname] at hsegments
  cases hfound : (mentionsIn bodies).filter (·.name = relation.name) with
  | nil =>
      obtain ⟨mention, hmention, heq⟩ := List.mem_map.mp hname
      exact absurd heq (by simpa using List.filter_eq_nil_iff.mp hfound mention hmention)
  | cons first others =>
      refine ⟨first, ?_, ?_⟩
      · rw [firstMention?, ← List.head?_filter, hfound, List.head?_cons]
      · rw [RelationRequest.span, hsegments, hfound, List.map_cons]
        rfl

lemma firstMention?_of_mem_walked {name : String}
    (h : name ∈ place.walked (place.request keysMode bodies)) :
    firstMention? name bodies = none := by
  refine List.find?_eq_none.mpr fun mention hmention heq => notMem_of_mem_walked h ?_
  rw [← of_decide_eq_true heq]
  exact List.mem_map_of_mem hmention

/-! ### What notes point at -/

/-- The span of a note holds a word of the level that means such a token and was dropped for the
cause of the note. -/
def PointsAtWord (place : Place) (keysMode : Bool) (text : List Char) (bodies : List Segment)
    (note : Note) (P : Token → Prop) : Prop :=
  ∃ word, note.span.Holds text word ∧
    classify (trim word) ∈ bodies.flatMap (fun segment => tokens segment.text.toList) ∧
    P (classify (trim word)) ∧
    place.tokenCause? keysMode (classify (trim word)) = some note.cause

/-- The span of a note is that of the body that a relation is mentioned with first: the trimmed body
stands there, unless it is blank. What `all` adds is not in the text, and gets the empty span in
front. -/
def PointsAtRelation (place : Place) (keysMode : Bool) (text : List Char) (bodies : List Segment)
    (note : Note) (name : String) : Prop :=
  match firstMention? name bodies with
  | some first =>
      Stands text first.offset first.body ∧ note.span = first.span ∧
        (¬ IsBlank first.body → note.span.Holds text (trim first.body))
  | none => name ∈ place.walked (place.request keysMode bodies) ∧ note.span = ⟨0, 0⟩

/-- **What stands at the span of a note** about a level with these bodies: the parenthesis, the
word or the relation that the note is about. -/
def PointsAt (place : Place) (keysMode : Bool) (text : List Char) (bodies : List Segment)
    (note : Note) : Prop :=
  match note.cause with
  | .unmatchedOpen => note.span.Holds text ['(']
  | .strayClose => note.span.Holds text [')']
  | .unknownField name | .relationAsField name =>
      place.PointsAtWord keysMode text bodies note (Token.Names name)
  | .filterIgnored name =>
      place.PointsAtWord keysMode text bodies note fun token => ∃ value, token = .filter name value
  | .tooDeep name _ | .fieldAsRelation name | .unknownRelation name =>
      place.PointsAtRelation keysMode text bodies note name

/-- A note about a parenthesis points at it. -/
lemma pointsAt_issueNote {issue : Issue}
    (hstands : Stands text segment.offset segment.text.toList)
    (hissue : issue ∈ (tokenize segment.text.toList).issues) :
    place.PointsAt keysMode text bodies (place.issueNote segment.offset issue) := by
  have hparen := hstands.trans (stands_of_mem_issues hissue)
  cases issue with
  | unmatchedOpen offset => exact ⟨hparen, rfl⟩
  | strayClose offset => exact ⟨hparen, rfl⟩

/-- A note about a token points at its word. -/
lemma pointsAt_of_tokenNote? {token : LocatedToken} {note : Note} (hsegment : segment ∈ bodies)
    (hstands : Stands text segment.offset segment.text.toList)
    (htoken : token ∈ (tokenize segment.text.toList).tokens)
    (h : place.tokenNote? keysMode segment.offset token = some note) :
    place.PointsAt keysMode text bodies note := by
  obtain ⟨cause, hcause, rfl⟩ := Option.map_eq_some_iff.mp h
  have hrelation : ∀ name body, token.token ≠ .relation name body := by
    intro name body heq
    rw [heq] at hcause
    cases hcause
  obtain ⟨word, hword, hclassify⟩ := exists_word_of_mem_tokens htoken hrelation
  have hmem : token.token ∈ bodies.flatMap fun segment => tokens segment.text.toList := by
    refine List.mem_flatMap.mpr ⟨segment, hsegment, ?_⟩
    rw [← map_token_tokenize]
    exact List.mem_map_of_mem htoken
  have hhere : (token.span.shift segment.offset).Holds text word := hword.shift hstands
  rw [hclassify] at hcause hmem
  rcases cause_of_tokenCause? hcause with ⟨name, hname, rfl | rfl⟩ | ⟨name, value, hname, rfl⟩
  · exact ⟨word, hhere, hmem, hname, hcause⟩
  · exact ⟨word, hhere, hmem, hname, hcause⟩
  · exact ⟨word, hhere, hmem, ⟨value, hname⟩, hcause⟩

/-- There is nothing to note about a body that reads `all`. -/
lemma not_noted_all {note : Note} (hall : segment.text = "all") :
    ¬ ((∃ issue ∈ (tokenize segment.text.toList).issues,
        note = place.issueNote segment.offset issue) ∨
      ∃ token ∈ (tokenize segment.text.toList).tokens,
        place.tokenNote? keysMode segment.offset token = some note) := by
  rw [hall]
  rintro (⟨issue, hissue, -⟩ | ⟨token, htoken, hnote⟩)
  · cases hissue
  · rw [List.mem_singleton.mp htoken] at hnote
    cases hnote

/-- A note about a relation of a request points at it. -/
lemma pointsAtRelation_of_mem_relations {relation : RelationRequest} {note : Note}
    (hbodies : ∀ segment ∈ bodies, segment.Located text)
    (h : relation ∈ (place.request keysMode bodies).relations) (hspan : note.span = relation.span) :
    place.PointsAtRelation keysMode text bodies note relation.name := by
  obtain ⟨first, hfirst, hrelation⟩ := span_of_mem_relations h
  have hstands := stands_firstMention hbodies hfirst
  rw [PointsAtRelation, hfirst, hspan, hrelation]
  exact ⟨hstands, rfl, Mention.holds_span hstands⟩

/-- A note about a relation that `all` adds has the empty span in front. -/
lemma pointsAtRelation_of_mem_walked {name : String} {note : Note}
    (h : name ∈ place.walked (place.request keysMode bodies)) (hspan : note.span = ⟨0, 0⟩) :
    place.PointsAtRelation keysMode text bodies note name := by
  rw [PointsAtRelation, firstMention?_of_mem_walked h]
  exact ⟨h, hspan⟩

/-- **All notes about a level** point at what they are about. -/
lemma Noted.pointsAt {options : CompileOptions} {left : Nat} {note : Note}
    (hbodies : ∀ segment ∈ bodies, segment.Located text)
    (h : place.Noted options left bodies note) :
    note.path = place.displayPath ∧ place.PointsAt options.includeKeys text bodies note := by
  cases h with
  | scanned h =>
      obtain ⟨segment, hsegment, hnote⟩ := mem_scanNotes.mp h
      rcases hbodies segment hsegment with hall | hstands
      · -- a blank body stands nowhere, but it is read as `all`
        exact (not_noted_all hall hnote).elim
      · rcases hnote with ⟨issue, hissue, rfl⟩ | ⟨token, htoken, hnote⟩
        · refine ⟨?_, pointsAt_issueNote hstands hissue⟩
          cases issue <;> rfl
        · refine ⟨?_, pointsAt_of_tokenNote? hsegment hstands htoken hnote⟩
          obtain ⟨cause, -, rfl⟩ := Option.map_eq_some_iff.mp hnote
          rfl
  | missing _ hrelation _ =>
      refine ⟨rfl, ?_⟩
      rcases place.missingCause_eq _ with hcause | hcause <;> rw [hcause]
      · exact pointsAtRelation_of_mem_relations hbodies hrelation rfl
      · exact pointsAtRelation_of_mem_relations hbodies hrelation rfl
  | tooDeep _ hrelation => exact ⟨rfl, pointsAtRelation_of_mem_relations hbodies hrelation rfl⟩
  | walkedTooDeep _ hname => exact ⟨rfl, pointsAtRelation_of_mem_walked hname rfl⟩

end Place

/-- **Notes point at what they are about**, at any depth: every note is about a level that the
selection leads to, and at its span in the selection stands the parenthesis, the word or the body
of the relation that it is about. -/
theorem notes_pointAt (compiler : Compiler) (query : Query) :
    ∀ note ∈ compiler.notes query, ∃ path place bodies,
      compiler.Descends query path place bodies ∧ note.path = place.displayPath ∧
        place.PointsAt compiler.options.includeKeys (compiler.selection query).toList bodies
          note := by
  intro note hnote
  obtain ⟨path, place, bodies, left, hdescends, -, hnoted⟩ := Compiler.mem_notes_iff.mp hnote
  obtain ⟨hpath, hpoints⟩ := hnoted.pointsAt hdescends.located
  exact ⟨path, place, bodies, hdescends, hpath, hpoints⟩

/-- Cellars with their barrels. -/
def vineyards : Compiler where
  shape := some [("name", .field none),
    ("cellars", .many [("barrels", .many [("wood", .field none)])])]

/-- Asks for cellars twice; the second time a parenthesis is missing. -/
def vineyardQuery : Query where
  fields := some
    "cellars( barrels( wood ,année ) ),cellars( barrels( -wood ,\u00a0goût( sucré ) )"

/-- The relation in the second of two bodies, behind blanks and characters of two bytes. -/
theorem notes_pointAt_vineyards :
    ⟨.unknownRelation "goût", "cellars.barrels", ⟨69, 75⟩⟩ ∈ vineyards.notes vineyardQuery ∧
      ∃ path place bodies, vineyards.Descends vineyardQuery path place bodies ∧
        "cellars.barrels" = place.displayPath ∧
        place.PointsAt false (vineyards.selection vineyardQuery).toList bodies
          ⟨.unknownRelation "goût", "cellars.barrels", ⟨69, 75⟩⟩ := by
  have hnote : ⟨.unknownRelation "goût", "cellars.barrels", ⟨69, 75⟩⟩
      ∈ vineyards.notes vineyardQuery := by decide +kernel
  exact ⟨hnote, notes_pointAt vineyards vineyardQuery _ hnote⟩

/-! ### Spans of the selection -/

/-- The relation that a note is about, if it is about one. -/
def Note.relation? (note : Note) : Option String :=
  match note.cause with
  | .tooDeep name _ | .fieldAsRelation name | .unknownRelation name => some name
  | _ => none

/-- The empty span in front is a span of any text. -/
lemma within_empty (text : List Char) : (⟨0, 0⟩ : Span).Within text :=
  have hfront : Boundary text 0 := (stands_self text).boundary
  ⟨Nat.le_refl 0, Nat.zero_le _, hfront, hfront⟩

namespace Place

variable {place : Place} {keysMode : Bool} {bodies : List Segment} {note : Note}

/-- The span of a relation is one of the text, unless its body is blank. -/
lemma PointsAtRelation.within {name : String}
    (h : place.PointsAtRelation keysMode text bodies note name) :
    note.span.Within text ∨ ∃ first, first.name = name ∧
      firstMention? name bodies = some first ∧ Stands text first.offset first.body ∧
      IsBlank first.body ∧ note.span = first.span := by
  rw [PointsAtRelation] at h
  split at h
  · next first hfirst =>
    obtain ⟨hstands, hspan, hholds⟩ := h
    by_cases hblank : IsBlank first.body
    · exact Or.inr ⟨first, name_firstMention hfirst, hfirst, hstands, hblank, hspan⟩
    · exact Or.inl (hholds hblank).within
  · rw [h.2]
    exact Or.inl (within_empty text)

/-- Where a note points at, its span is one of the text, unless it is about a relation with a blank
body. -/
lemma PointsAt.within (h : place.PointsAt keysMode text bodies note) :
    note.span.Within text ∨ ∃ first, note.relation? = some first.name ∧
      firstMention? first.name bodies = some first ∧ Stands text first.offset first.body ∧
      IsBlank first.body ∧ note.span = first.span := by
  obtain ⟨cause, path, span⟩ := note
  cases cause with
  | unmatchedOpen => exact Or.inl (Span.Holds.within h)
  | strayClose => exact Or.inl (Span.Holds.within h)
  | unknownField name | relationAsField name | filterIgnored name =>
      obtain ⟨word, hword, -⟩ := h
      exact Or.inl hword.within
  | tooDeep name _ | fieldAsRelation name | unknownRelation name =>
      refine (PointsAtRelation.within h).imp_right ?_
      rintro ⟨first, rfl, hfirst, hrest⟩
      exact ⟨first, rfl, hfirst, hrest⟩

end Place

/-- **Spans stay inside the selection**: the ends of a span are in order, not behind the end of the
selection and between its characters. Only a dropped relation whose first body is blank may have
another span, which starts at the end of that body and has the length of the word `all`. -/
theorem notes_within (compiler : Compiler) (query : Query) :
    ∀ note ∈ compiler.notes query,
      note.span.Within (compiler.selection query).toList ∨
        ∃ path place bodies first, compiler.Descends query path place bodies ∧
          note.path = place.displayPath ∧ note.relation? = some first.name ∧
          firstMention? first.name bodies = some first ∧
          Stands (compiler.selection query).toList first.offset first.body ∧
          IsBlank first.body ∧
          note.span = ⟨first.offset + bytes first.body, first.offset + bytes first.body + 3⟩ := by
  intro note hnote
  obtain ⟨path, place, bodies, left, hdescends, -, hnoted⟩ := Compiler.mem_notes_iff.mp hnote
  obtain ⟨hpath, hpoints⟩ := hnoted.pointsAt hdescends.located
  refine hpoints.within.imp_right ?_
  rintro ⟨first, hname, hfirst, hstands, hblank, hspan⟩
  rw [Mention.span_of_isBlank hblank] at hspan
  exact ⟨path, place, bodies, first, hdescends, hpath, hname, hfirst, hstands, hblank, hspan⟩

/-- The parenthesis that is missing. -/
theorem notes_within_vineyards :
    ⟨.unmatchedOpen, "<root>", ⟨42, 43⟩⟩ ∈ vineyards.notes vineyardQuery ∧
      (⟨42, 43⟩ : Span).Within (vineyards.selection vineyardQuery).toList := by
  have hnote : ⟨.unmatchedOpen, "<root>", ⟨42, 43⟩⟩ ∈ vineyards.notes vineyardQuery := by
    decide +kernel
  refine ⟨hnote, (notes_within vineyards vineyardQuery _ hnote).resolve_right ?_⟩
  rintro ⟨path, place, bodies, first, -, -, hnone, -⟩
  cases hnone

/-- The span of a relation with an empty body ends behind the end of the selection. -/
theorem span_outside :
    ⟨.unknownRelation "x", "<root>", ⟨2, 5⟩⟩ ∈ vineyards.notes { fields := some "x()" } ∧
      ¬ (⟨2, 5⟩ : Span).Within (vineyards.selection { fields := some "x()" }).toList := by
  constructor
  · decide
  · intro h
    exact absurd h.stop_le (by decide)

end FieldSelection
