import FieldSelection.Proofs.Level.Notes

/-!
Where notes come from.

A compilation goes down from level to level, and everything that it notes is about one level: its
tokens, or the relations that it asks for. This file follows the bodies of levels with their
places in the text.

* `Mention`: a relation with one body, as it stands in the text; `Place.relations_request` finds
  the relations of a request among the mentions in its bodies.
* `segmentsBelow`: the bodies of the level behind a relation.
* `Place.Descends`: the levels that bodies lead to; `Place.Descends.forall_segments` carries what
  bodies hand on to the bodies in them.
* `Place.Noted`: what is noted about one level.
* `Compiler.mem_notes_iff`: the notes of a query are those about the levels that it leads to, by
  induction on the levels that may follow (`Place.mem_notes_iff`).
-/

namespace FieldSelection

open FieldSelection.Selection FieldSelection.Text

/-! ### Mentions of relations -/

/-- A relation with one body as it stands in a text, blanks included. -/
structure Mention where
  name : String
  body : List Char
  /-- Where the body starts, right behind its parenthesis. -/
  offset : Nat
  deriving DecidableEq, Repr

/-- The mention of a relation in a piece that starts at `offset`. -/
def Selection.Piece.mention? (offset : Nat) : Piece → Option Mention
  | .word _ _ => none
  | .relation name body _ => some ⟨.ofList (trim name), body, offset + bytes name + 1⟩

/-- The body that a mention adds to the level behind the relation. -/
def Mention.segment (mention : Mention) : Segment :=
  ⟨bodyText mention.body, mention.offset + bytes (mention.body.takeWhile isBlank)⟩

/-- The relations that a body mentions, in order. -/
def Segment.mentions (segment : Segment) : List Mention :=
  (locate 0 (pieces segment.text.toList)).filterMap fun located =>
    located.2.mention? (segment.offset + located.1)

/-- The relations that the bodies of a level mention, in order. -/
def mentionsIn (segments : List Segment) : List Mention :=
  segments.flatMap Segment.mentions

lemma Segment.mem_mentions {segment : Segment} {mention : Mention} :
    mention ∈ segment.mentions ↔
      ∃ offset name body closed,
        (offset, Piece.relation name body closed) ∈ locate 0 (pieces segment.text.toList) ∧
          mention = ⟨.ofList (trim name), body, segment.offset + offset + bytes name + 1⟩ := by
  rw [mentions, List.mem_filterMap]
  constructor
  · rintro ⟨⟨offset, piece⟩, hpiece, hmention⟩
    cases piece with
    | word text ended => cases hmention
    | relation name body closed =>
        exact ⟨offset, name, body, closed, hpiece, (Option.some.inj hmention).symm⟩
  · rintro ⟨offset, name, body, closed, hpiece, rfl⟩
    exact ⟨_, hpiece, rfl⟩

/-- The bodies that a balanced body mentions are balanced. -/
lemma Mention.balanced_segment {segment : Segment} (h : Balanced segment.text.toList)
    {mention : Mention} (hmention : mention ∈ segment.mentions) :
    Balanced mention.segment.text.toList := by
  obtain ⟨offset, name, body, closed, hpiece, rfl⟩ := Segment.mem_mentions.mp hmention
  have hmatched := h.matched _ (mem_of_mem_locate hpiece)
  exact hmatched.2.1.bodyText

/-- Name a relation as a mention does. -/
def insertMention (relations : List RelationRequest) (mention : Mention) : List RelationRequest :=
  insertSegment mention.name mention.segment relations

lemma Request.relations_add_word {place : Place} {keysMode : Bool} {base : Nat}
    {request : Request} {token : LocatedToken}
    (h : ∀ name body, token.token ≠ .relation name body) :
    (request.add place keysMode base token).relations = request.relations := by
  obtain ⟨token, span, bodyOffset⟩ := token
  cases token with
  | relation name body => exact absurd rfl (h name body)
  | all => rfl
  | field name =>
      simp only [add]
      split_ifs <;> rfl
  | except name =>
      simp only [add]
      split_ifs <;> rfl
  | filter name value =>
      simp only [add]
      split_ifs <;> rfl

/-- A body adds the relations that it mentions. -/
lemma Request.relations_addSegment (place : Place) (keysMode : Bool) (request : Request)
    (segment : Segment) :
    (request.addSegment place keysMode segment).relations
      = segment.mentions.foldl insertMention request.relations := by
  rw [addSegment, tokenize, Segment.mentions]
  simp only
  induction locate 0 (pieces segment.text.toList) generalizing request with
  | nil => rfl
  | cons located rest ih =>
      obtain ⟨offset, piece⟩ := located
      cases piece with
      | word text ended =>
          rw [List.filterMap_cons, List.filterMap_cons, Piece.mention?, Piece.token?]
          split
          · exact ih request
          · next token htoken =>
            rw [Option.ite_none_left_eq_some, Option.some.injEq] at htoken
            obtain ⟨-, rfl⟩ := htoken
            rw [List.foldl_cons, ih, relations_add_word (classify_ne_relation _)]
      | relation name body closed =>
          have hstart : segment.offset +
              (offset + bytes name + 1 + bytes (body.takeWhile isBlank))
              = segment.offset + offset + bytes name + 1 + bytes (body.takeWhile isBlank) := by
            omega
          rw [List.filterMap_cons, List.filterMap_cons, Piece.mention?, Piece.token?]
          simp only [List.foldl_cons]
          rw [ih, insertMention, Mention.segment, ← hstart]
          rfl

/-- Mentions that are named one after the other: every relation is listed where it is mentioned
first, with all its bodies. -/
lemma foldl_insertMention (mentions : List Mention) :
    mentions.foldl insertMention []
      = (distinctNames (mentions.map (·.name))).map fun name =>
          ⟨name, (mentions.filter (·.name = name)).map Mention.segment⟩ := by
  induction mentions using List.reverseRecOn with
  | nil => rfl
  | append_singleton mentions last ih =>
      have hnone : last.name ∉ distinctNames (mentions.map (·.name)) →
          (mentions.filter (·.name = last.name)).map Mention.segment = [] := by
        intro h
        rw [List.map_eq_nil_iff, List.filter_eq_nil_iff]
        intro mention hmention heq
        have hname := of_decide_eq_true heq
        exact h (mem_distinctNames.mpr (hname ▸ List.mem_map_of_mem hmention))
      rw [List.foldl_append, List.foldl_cons, List.foldl_nil, ih, insertMention,
        insertSegment_map
          (f := fun name => (mentions.filter (·.name = name)).map Mention.segment)
          (nodup_distinctNames _) hnone,
        List.map_append, List.map_singleton, distinctNames_append_singleton]
      refine List.map_congr_left fun name _ => ?_
      by_cases h : name = last.name
      · simp [h]
      · simp [h, Ne.symm h]

/-- **The relations of a request** are those that its bodies mention, each with all its bodies. -/
lemma Place.relations_request (place : Place) (keysMode : Bool) (segments : List Segment) :
    (place.request keysMode segments).relations
      = (distinctNames ((mentionsIn segments).map (·.name))).map fun name =>
          ⟨name, ((mentionsIn segments).filter (·.name = name)).map Mention.segment⟩ := by
  have key : ∀ request : Request,
      (segments.foldl (Request.addSegment place keysMode) request).relations
        = (mentionsIn segments).foldl insertMention request.relations := by
    induction segments with
    | nil => exact fun _ => rfl
    | cons segment rest ih =>
        intro request
        rw [List.foldl_cons, ih, Request.relations_addSegment, mentionsIn, mentionsIn,
          List.flatMap_cons, List.foldl_append]
  rw [request, key, ← foldl_insertMention]

/-! ### What is noted about tokens -/

/-- The tokens of words that stand for a name: they include it, exclude it or filter on it. -/
inductive Selection.Token.Names (name : String) : Token → Prop where
  | field : Names name (.field name)
  | except : Names name (.except name)
  | filter (value : String) : Names name (.filter name value)

lemma Place.dropCause_eq (place : Place) (name : String) :
    place.dropCause name = .unknownField name ∨ place.dropCause name = .relationAsField name := by
  rw [dropCause]
  split
  · exact Or.inr rfl
  · exact Or.inl rfl

lemma Place.missingCause_eq (place : Place) (name : String) :
    place.missingCause name = .fieldAsRelation name ∨
      place.missingCause name = .unknownRelation name := by
  rw [missingCause]
  split
  · exact Or.inl rfl
  · exact Or.inr rfl

/-- What a token is noted for is its name. -/
lemma Place.cause_of_tokenCause? {place : Place} {keysMode : Bool} {token : Token} {cause : Cause}
    (h : place.tokenCause? keysMode token = some cause) :
    (∃ name, token.Names name ∧ (cause = .unknownField name ∨ cause = .relationAsField name)) ∨
      ∃ name value, token = .filter name value ∧ cause = .filterIgnored name := by
  cases token with
  | all => cases h
  | relation name body => cases h
  | field name =>
      rw [tokenCause?, Option.ite_none_left_eq_some, Option.some.injEq] at h
      exact Or.inl ⟨name, .field, h.2 ▸ place.dropCause_eq name⟩
  | except name =>
      rw [tokenCause?, Option.ite_none_left_eq_some, Option.some.injEq] at h
      exact Or.inl ⟨name, .except, h.2 ▸ place.dropCause_eq name⟩
  | filter name value =>
      rw [tokenCause?] at h
      split at h
      · exact Or.inl ⟨name, .filter value, Option.some.inj h ▸ place.dropCause_eq name⟩
      · rw [Option.ite_none_left_eq_some, Option.some.injEq] at h
        exact Or.inr ⟨name, value, rfl, h.2.symm⟩

lemma Place.mem_scanNotes {place : Place} {keysMode : Bool} {segments : List Segment}
    {note : Note} :
    note ∈ place.scanNotes keysMode segments ↔
      ∃ segment ∈ segments,
        (∃ issue ∈ (tokenize segment.text.toList).issues,
          note = place.issueNote segment.offset issue) ∨
        ∃ token ∈ (tokenize segment.text.toList).tokens,
          place.tokenNote? keysMode segment.offset token = some note := by
  simp only [scanNotes, segmentNotes, List.mem_flatMap, List.mem_append, List.mem_map,
    List.mem_filterMap, eq_comm]

/-! ### Going down -/

/-- The body that is read where everything is asked for. -/
def everythingSegment : Segment :=
  ⟨"all", 0⟩

/-- The bodies of the level behind a relation: those that it is mentioned with, or `all` if it
is not mentioned. -/
def segmentsBelow (name : String) (segments : List Segment) : List Segment :=
  if name ∈ (mentionsIn segments).map (·.name) then
    ((mentionsIn segments).filter (·.name = name)).map Mention.segment
  else [everythingSegment]

namespace Place

lemma mem_relations_request {place : Place} {keysMode : Bool} {segments : List Segment}
    {relation : RelationRequest} :
    relation ∈ (place.request keysMode segments).relations ↔
      relation.name ∈ (mentionsIn segments).map (·.name) ∧
        relation.segments = segmentsBelow relation.name segments := by
  rw [relations_request, List.mem_map]
  constructor
  · rintro ⟨name, hname, rfl⟩
    rw [mem_distinctNames] at hname
    exact ⟨hname, (if_pos hname).symm⟩
  · rintro ⟨hname, hsegments⟩
    refine ⟨relation.name, mem_distinctNames.mpr hname, ?_⟩
    rw [segmentsBelow, if_pos hname] at hsegments
    rw [← hsegments]

/-- What `all` adds is not mentioned. -/
lemma notMem_of_mem_walked {place : Place} {keysMode : Bool} {segments : List Segment}
    {name : String} (h : name ∈ place.walked (place.request keysMode segments)) :
    name ∉ (mentionsIn segments).map (·.name) := by
  intro hname
  have hrelation : ⟨name, segmentsBelow name segments⟩
      ∈ (place.request keysMode segments).relations := mem_relations_request.mpr ⟨hname, rfl⟩
  rw [walked] at h
  split at h
  · have hnot := (List.mem_filter.mp h).2
    simp only [Request.hasRelation, Bool.and_eq_true, Bool.not_eq_true', List.any_eq_false,
      decide_eq_true_eq] at hnot
    exact hnot.1 _ hrelation rfl
  · cases h

lemma segmentsBelow_of_mem_walked {place : Place} {keysMode : Bool} {segments : List Segment}
    {name : String} (h : name ∈ place.walked (place.request keysMode segments)) :
    segmentsBelow name segments = [everythingSegment] :=
  if_neg (notMem_of_mem_walked h)

/-- The body `all` asks for everything, and there is nothing to note about it. -/
lemma request_everythingSegment (place : Place) (keysMode : Bool) :
    place.request keysMode [everythingSegment] = .everything :=
  rfl

lemma scanNotes_everythingSegment (place : Place) (keysMode : Bool) :
    place.scanNotes keysMode [everythingSegment] = [] :=
  rfl

/-- The relations that bodies ask for at a place: those that they mention, and those that `all`
adds. -/
def asksFor (place : Place) (keysMode : Bool) (segments : List Segment) : List String :=
  (place.request keysMode segments).relations.map (·.name) ++
    place.walked (place.request keysMode segments)

/-- **The levels that bodies lead to**, along paths of relations that are asked for and known:
the place at the end of a path and the bodies there. -/
inductive Descends (keysMode : Bool) :
    Place → List Segment → List String → Place → List Segment → Prop where
  | here (place : Place) (segments : List Segment) :
      Descends keysMode place segments [] place segments
  | down {place mid last : Place} {segments bodies : List Segment} {name : String}
      {path : List String} (hasked : name ∈ place.asksFor keysMode segments)
      (hmid : place.enter? name = some mid)
      (hrest : Descends keysMode mid (segmentsBelow name segments) path last bodies) :
      Descends keysMode place segments (name :: path) last bodies

/-- What a body hands on to the bodies in it, and what holds of `all`, holds of all bodies that
others lead to. -/
lemma Descends.forall_segments {P : Segment → Prop} {keysMode : Bool} {place last : Place}
    {segments bodies : List Segment} {path : List String}
    (h : Descends keysMode place segments path last bodies)
    (hstep : ∀ segment, P segment → ∀ mention ∈ segment.mentions, P mention.segment)
    (hall : P everythingSegment) (hsegments : ∀ segment ∈ segments, P segment) :
    ∀ segment ∈ bodies, P segment := by
  induction h with
  | here place segments => exact hsegments
  | @down place mid last segments bodies name path _ _ _ ih =>
      refine ih fun segment hsegment => ?_
      rw [segmentsBelow] at hsegment
      split at hsegment
      · obtain ⟨mention, hmention, rfl⟩ := List.mem_map.mp hsegment
        obtain ⟨outer, houter, hmention⟩ :=
          List.mem_flatMap.mp (List.mem_filter.mp hmention).1
        exact hstep outer (hsegments outer houter) mention hmention
      · rw [List.mem_singleton.mp hsegment]
        exact hall

/-! ### What is noted about one level -/

/-- **What is noted about a level** with these bodies, when `left` more levels may follow: what
its tokens are noted for, the relations that it mentions and does not know, and, if no level may
follow, every relation that it asks for. -/
inductive Noted (options : CompileOptions) (place : Place) (left : Nat)
    (segments : List Segment) : Note → Prop where
  | scanned {note : Note} (h : note ∈ place.scanNotes options.includeKeys segments) :
      Noted options place left segments note
  | missing {relation : RelationRequest} (hleft : left ≠ 0)
      (h : relation ∈ (place.request options.includeKeys segments).relations)
      (hnone : place.enter? relation.name = none) :
      Noted options place left segments
        ⟨place.missingCause relation.name, place.displayPath, relation.span⟩
  | tooDeep {relation : RelationRequest} (hleft : left = 0)
      (h : relation ∈ (place.request options.includeKeys segments).relations) :
      Noted options place left segments
        ⟨.tooDeep relation.name options.maxDepth, place.displayPath, relation.span⟩
  | walkedTooDeep {name : String} (hleft : left = 0)
      (h : name ∈ place.walked (place.request options.includeKeys segments)) :
      Noted options place left segments
        ⟨.tooDeep name options.maxDepth, place.displayPath, ⟨0, 0⟩⟩

/-- **The notes about bodies and below them** are those about the levels that they lead to. -/
lemma mem_notes_iff {options : CompileOptions} {room : Nat} {place : Place}
    {segments : List Segment} {note : Note} :
    (note ∈ place.scanNotes options.includeKeys segments ∨
        note ∈ Place.notes options room place (place.request options.includeKeys segments)) ↔
      ∃ path last bodies left, place.Descends options.includeKeys segments path last bodies ∧
        path.length + left = room ∧ last.Noted options left bodies note := by
  -- on the room, which a path uses up step by step; what is left of it decides what is noted
  induction room generalizing place segments with
  | zero =>
      rw [mem_notes_zero]
      constructor
      · rintro (hscan | ⟨relation, hrelation, rfl⟩ | ⟨name, hname, rfl⟩)
        · exact ⟨[], place, segments, 0, .here _ _, rfl, .scanned hscan⟩
        · exact ⟨[], place, segments, 0, .here _ _, rfl, .tooDeep rfl hrelation⟩
        · exact ⟨[], place, segments, 0, .here _ _, rfl, .walkedTooDeep rfl hname⟩
      · rintro ⟨path, last, bodies, left, hdescends, hlength, hnotes⟩
        cases hdescends with
        | here =>
            cases hnotes with
            | scanned hscan => exact Or.inl hscan
            | missing hleft => exact absurd (by simpa using hlength) hleft
            | tooDeep _ hrelation => exact Or.inr (Or.inl ⟨_, hrelation, rfl⟩)
            | walkedTooDeep _ hname => exact Or.inr (Or.inr ⟨_, hname, rfl⟩)
        | down =>
            rw [List.length_cons] at hlength
            omega
  | succ room ih =>
      rw [mem_notes_succ]
      constructor
      · rintro (hscan | ⟨relation, hrelation, hnone, rfl⟩ |
          ⟨relation, hrelation, next, hnext, hnote⟩ | ⟨name, hname, next, hnext, hnote⟩)
        · exact ⟨[], place, segments, room + 1, .here _ _, Nat.zero_add _, .scanned hscan⟩
        · exact ⟨[], place, segments, room + 1, .here _ _, Nat.zero_add _,
            .missing (Nat.succ_ne_zero room) hrelation hnone⟩
        · have hasked : relation.name ∈ place.asksFor options.includeKeys segments :=
            List.mem_append_left _ (List.mem_map_of_mem hrelation)
          rw [(mem_relations_request.mp hrelation).2] at hnote
          obtain ⟨path, last, bodies, left, hdescends, hlength, hnotes⟩ := ih.mp hnote
          exact ⟨relation.name :: path, last, bodies, left, .down hasked hnext hdescends,
            by rw [List.length_cons]; omega, hnotes⟩
        · have hbelow := segmentsBelow_of_mem_walked hname
          rw [← request_everythingSegment next options.includeKeys, ← hbelow] at hnote
          obtain ⟨path, last, bodies, left, hdescends, hlength, hnotes⟩ := ih.mp (Or.inr hnote)
          exact ⟨name :: path, last, bodies, left,
            .down (List.mem_append_right _ hname) hnext hdescends,
            by rw [List.length_cons]; omega, hnotes⟩
      · rintro ⟨path, last, bodies, left, hdescends, hlength, hnotes⟩
        cases hdescends with
        | here =>
            rw [List.length_nil, Nat.zero_add] at hlength
            cases hnotes with
            | scanned hscan => exact Or.inl hscan
            | missing _ hrelation hnone => exact Or.inr (Or.inl ⟨_, hrelation, hnone, rfl⟩)
            | tooDeep hleft => omega
            | walkedTooDeep hleft => omega
        | @down _ mid _ _ _ name path hasked hmid hrest =>
            rw [List.length_cons] at hlength
            have hnote := ih.mpr ⟨path, last, bodies, left, hrest, by omega, hnotes⟩
            rcases List.mem_append.mp hasked with hnamed | hwalked
            · obtain ⟨relation, hrelation, rfl⟩ := List.mem_map.mp hnamed
              rw [← (mem_relations_request.mp hrelation).2] at hnote
              exact Or.inr (Or.inr (Or.inl ⟨relation, hrelation, mid, hmid, hnote⟩))
            · rw [segmentsBelow_of_mem_walked hwalked, request_everythingSegment,
                scanNotes_everythingSegment] at hnote
              rcases hnote with hnone | hnote
              · cases hnone
              · exact Or.inr (Or.inr (Or.inr ⟨name, hwalked, mid, hmid, hnote⟩))

end Place

/-! ### Whole selections -/

namespace Compiler

/-- The level at the end of a path that a selection leads along. -/
def Descends (compiler : Compiler) (query : Query) (path : List String) (place : Place)
    (bodies : List Segment) : Prop :=
  compiler.root.Descends compiler.options.includeKeys (compiler.segments query) path place bodies

/-- A selection of everything goes the short way, which leads where the long way does: its text
asks for everything, and there is nothing to note about it. -/
lemma of_selectsAll {compiler : Compiler} {query : Query} (h : compiler.selectsAll query = true) :
    compiler.root.request compiler.options.includeKeys (compiler.segments query) = .everything ∧
      compiler.root.scanNotes compiler.options.includeKeys (compiler.segments query) = [] := by
  constructor
  · have htokens : (tokenize (compiler.selection query).toList).tokens.map (·.token) = [.all] := by
      rw [map_token_tokenize, tokens_of_isAll h]
    obtain ⟨token, hlist, htoken⟩ := List.map_eq_singleton_iff.mp htokens
    rw [Place.request, segments, List.foldl_cons, List.foldl_nil, Request.addSegment, hlist,
      List.foldl_cons, List.foldl_nil, Request.add, htoken]
    rfl
  · refine Place.scanNotes_eq_nil (fun segment hsegment => ?_) fun token htoken => ?_
    · rw [List.mem_singleton.mp hsegment]
      exact balanced_of_isAll h
    · rw [segments, List.flatMap_singleton, tokens_of_isAll h] at htoken
      rw [List.mem_singleton.mp htoken]
      rfl

/-- **The notes of a query** are those about the levels that its selection leads to. -/
lemma mem_notes_iff {compiler : Compiler} {query : Query} {note : Note} :
    note ∈ compiler.notes query ↔
      ∃ path place bodies left, compiler.Descends query path place bodies ∧
        path.length + left = compiler.options.maxDepth ∧
        place.Noted compiler.options left bodies note := by
  refine Iff.trans ?_ Place.mem_notes_iff
  rw [notes, request, List.mem_append]
  cases hall : compiler.selectsAll query with
  | true => rw [(of_selectsAll hall).1, (of_selectsAll hall).2, if_pos rfl, if_pos rfl]
  | false => rw [if_neg Bool.false_ne_true, if_neg Bool.false_ne_true]

end Compiler

end FieldSelection
