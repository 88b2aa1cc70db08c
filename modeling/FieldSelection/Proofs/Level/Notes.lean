import FieldSelection.Proofs.Level.Descent
import FieldSelection.Proofs.Selection.Issues

/-!
What is noted about a level and below it.

Notes are made in the order of the descent. Where they come from does not depend on that
order, so it is told note by note.

* `Place.mem_notes_zero`, `Place.mem_notes_succ`: what a note below a level is about,
  without and with room for levels.
* `Note.isTooDeep`: the notes about relations that are nested too deeply.
* `Place.Quiet`: tokens that nothing is noted about, at their level and below it;
  `Place.quiet_of_notes` and `Compiler.quiet_of_notes` find them where there are no notes.
* `Place.notes_eq_nil_of_quiet`, `Compiler.notes_eq_nil`: the other way round, as long as
  parentheses match.
-/

namespace FieldSelection

open FieldSelection.Selection

/-- Whether a note is about a relation that is nested too deeply. -/
def Note.isTooDeep (note : Note) : Bool :=
  match note.cause with
  | .tooDeep _ _ => true
  | _ => false

/-! ### Note by note -/

namespace Place

variable {options : CompileOptions} {room : Nat} {place : Place} {request : Request} {note : Note}

/-- Without room, every relation that is named or added is noted as nested too deeply. -/
lemma mem_notes_zero :
    note ∈ Place.notes options 0 place request ↔
      (∃ relation ∈ request.relations,
        note = ⟨.tooDeep relation.name options.maxDepth, place.displayPath, relation.span⟩) ∨
      ∃ name ∈ place.walked request,
        note = ⟨.tooDeep name options.maxDepth, place.displayPath, ⟨0, 0⟩⟩ := by
  simp only [Place.notes, List.mem_append, List.mem_map, eq_comm]

/-- With room, a relation that the place does not know is noted if it was named. Behind a
relation that it knows, the tokens of a body are noted, and what is below them. -/
lemma mem_notes_succ :
    note ∈ Place.notes options (room + 1) place request ↔
      (∃ relation ∈ request.relations, place.enter? relation.name = none ∧
        note = ⟨place.missingCause relation.name, place.displayPath, relation.span⟩) ∨
      (∃ relation ∈ request.relations, ∃ next, place.enter? relation.name = some next ∧
        (note ∈ next.scanNotes options.includeKeys relation.segments ∨
          note ∈ Place.notes options room next
            (next.request options.includeKeys relation.segments))) ∨
      ∃ name ∈ place.walked request, ∃ next, place.enter? name = some next ∧
        note ∈ Place.notes options room next .everything := by
  rw [Place.notes, List.mem_append, List.mem_flatMap, List.mem_flatMap]
  constructor
  · rintro (⟨relation, hrelation, hnote⟩ | ⟨name, hname, hnote⟩)
    · split at hnote
      · next hnext => exact Or.inl ⟨relation, hrelation, hnext, List.mem_singleton.mp hnote⟩
      · next next hnext =>
        exact Or.inr (Or.inl ⟨relation, hrelation, next, hnext, List.mem_append.mp hnote⟩)
    · split at hnote
      · cases hnote
      · next next hnext => exact Or.inr (Or.inr ⟨name, hname, next, hnext, hnote⟩)
  · rintro (⟨relation, hrelation, hnext, hnote⟩ | ⟨relation, hrelation, next, hnext, hnote⟩ |
      ⟨name, hname, next, hnext, hnote⟩)
    · refine Or.inl ⟨relation, hrelation, ?_⟩
      rw [hnext]
      exact List.mem_singleton.mpr hnote
    · refine Or.inl ⟨relation, hrelation, ?_⟩
      rw [hnext]
      exact List.mem_append.mpr hnote
    · refine Or.inr ⟨name, hname, ?_⟩
      rw [hnext]
      exact hnote

/-! ### Selections that nothing is noted about -/

/-- Whether nothing is noted about the tokens of a level and below it: the place knows every
name in them, and there is room for every relation that they lead to. -/
def Quiet (keysMode : Bool) : (room : Nat) → Place → List Token → Prop
  | 0, place, tokens =>
    (∀ token ∈ tokens, place.tokenCause? keysMode token = none) ∧
      relationNames tokens = [] ∧ place.unnamed tokens = []
  | room + 1, place, tokens =>
    (∀ token ∈ tokens, place.tokenCause? keysMode token = none) ∧
      (∀ name ∈ relationNames tokens, ∃ next, place.enter? name = some next ∧
        Quiet keysMode room next (bodyTokens name tokens)) ∧
      ∀ name ∈ place.unnamed tokens, ∀ next, place.enter? name = some next →
        Quiet keysMode room next [.all]

lemma Quiet.here {keysMode : Bool} {place : Place} {tokens : List Token}
    (h : Quiet keysMode room place tokens) :
    ∀ token ∈ tokens, place.tokenCause? keysMode token = none := by
  cases room with
  | zero => exact h.1
  | succ room => exact h.1

/-- Where nothing is noted about bodies, nothing is to be noted about their tokens. -/
lemma tokenCause?_of_scanNotes {keysMode : Bool} {segments : List Segment}
    (h : place.scanNotes keysMode segments = []) :
    ∀ token ∈ segments.flatMap fun segment => tokens segment.text.toList,
      place.tokenCause? keysMode token = none := by
  intro token htoken
  obtain ⟨segment, hsegment, htoken⟩ := List.mem_flatMap.mp htoken
  rw [← map_token_tokenize] at htoken
  obtain ⟨located, hlocated, rfl⟩ := List.mem_map.mp htoken
  have hnotes := List.flatMap_eq_nil_iff.mp h segment hsegment
  have hnote := List.filterMap_eq_nil_iff.mp (List.append_eq_nil_iff.mp hnotes).2 located hlocated
  exact Option.map_eq_none_iff.mp hnote

/-- The relations of a request are those that its tokens name, with their bodies. -/
lemma relations_of_unplaced {keysMode : Bool} {tokens : List Token}
    (h : request.unplaced = place.asked keysMode tokens) :
    request.relations.map (fun relation => (relation.name, relation.segments.map (·.text)))
      = (relationNames tokens).map fun name => (name, bodies name tokens) := by
  have hrelations : request.relations.map RelationRequest.unplaced
      = (relationNames tokens).map fun name => ⟨name, (bodies name tokens).map (⟨·, 0⟩)⟩ := by
    rw [← asked_relations place keysMode, ← h]
    rfl
  have htexts := congrArg
    (List.map fun relation : RelationRequest => (relation.name, relation.segments.map (·.text)))
    hrelations
  simpa [RelationRequest.unplaced, Function.comp_def] using htexts

/-- The tokens of a relation are those of its bodies. -/
lemma flatMap_tokens_segments {segments : List Segment} {name : String} {tokens : List Token}
    (h : segments.map (·.text) = bodies name tokens) :
    (segments.flatMap fun segment => Selection.tokens segment.text.toList)
      = bodyTokens name tokens := by
  rw [bodyTokens, ← h, List.flatMap_map]

/-- A relation that tokens name is one of their request, with the tokens of its bodies. -/
lemma exists_relation_of_unplaced {keysMode : Bool} {tokens : List Token}
    (h : request.unplaced = place.asked keysMode tokens) {name : String}
    (hname : name ∈ relationNames tokens) :
    ∃ relation ∈ request.relations, relation.name = name ∧
      (relation.segments.flatMap fun segment => Selection.tokens segment.text.toList)
        = bodyTokens name tokens := by
  have hmem := List.mem_map_of_mem (f := fun name => (name, bodies name tokens)) hname
  rw [← relations_of_unplaced h] at hmem
  obtain ⟨relation, hrelation, heq⟩ := List.mem_map.mp hmem
  obtain ⟨rfl, hsegments⟩ := Prod.mk.inj heq
  exact ⟨relation, hrelation, rfl, flatMap_tokens_segments hsegments⟩

/-- A relation of a request is one that its tokens name, with its bodies there. -/
lemma named_of_mem_relations {keysMode : Bool} {tokens : List Token}
    (h : request.unplaced = place.asked keysMode tokens) {relation : RelationRequest}
    (hrelation : relation ∈ request.relations) :
    relation.name ∈ relationNames tokens ∧
      relation.segments.map (·.text) = bodies relation.name tokens := by
  have hmem := List.mem_map_of_mem
    (f := fun relation : RelationRequest => (relation.name, relation.segments.map (·.text)))
    hrelation
  rw [relations_of_unplaced h] at hmem
  obtain ⟨name, hname, heq⟩ := List.mem_map.mp hmem
  obtain ⟨rfl, hbodies⟩ := Prod.mk.inj heq
  exact ⟨hname, hbodies.symm⟩

/-- The relations that a request for everything adds are those that its tokens add. -/
lemma walked_eq_unnamed {keysMode : Bool} {tokens : List Token}
    (h : request.unplaced = place.asked keysMode tokens) :
    place.walked request = place.unnamed tokens := by
  rw [← walked_unplaced, h, walked_asked]

/-- **Where there are no notes** below a level, its tokens are quiet if nothing is noted about
themselves. -/
lemma quiet_of_notes {tokens : List Token}
    (hrequest : request.unplaced = place.asked options.includeKeys tokens)
    (hscan : ∀ token ∈ tokens, place.tokenCause? options.includeKeys token = none)
    (hnotes : ∀ note, note ∉ Place.notes options room place request) :
    Quiet options.includeKeys room place tokens := by
  induction room generalizing place request tokens with
  | zero =>
      refine ⟨hscan, List.eq_nil_iff_forall_not_mem.mpr fun name hname => ?_,
        List.eq_nil_iff_forall_not_mem.mpr fun name hname => ?_⟩
      · obtain ⟨relation, hrelation, -, -⟩ := exists_relation_of_unplaced hrequest hname
        exact hnotes _ (mem_notes_zero.mpr (Or.inl ⟨relation, hrelation, rfl⟩))
      · rw [← walked_eq_unnamed hrequest] at hname
        exact hnotes _ (mem_notes_zero.mpr (Or.inr ⟨name, hname, rfl⟩))
  | succ room ih =>
      refine ⟨hscan, fun name hname => ?_, fun name hname next hnext => ?_⟩
      · obtain ⟨relation, hrelation, rfl, htokens⟩ := exists_relation_of_unplaced hrequest hname
        cases hnext : place.enter? relation.name with
        | none =>
            -- a relation that the place does not know would be noted
            exact absurd (mem_notes_succ.mpr (Or.inl ⟨relation, hrelation, hnext, rfl⟩)) (hnotes _)
        | some next =>
            have hbehind : ∀ note, note ∉ next.scanNotes options.includeKeys relation.segments ∧
                note ∉ Place.notes options room next
                  (next.request options.includeKeys relation.segments) := by
              intro note
              rw [← not_or]
              intro hnote
              exact hnotes note (mem_notes_succ.mpr
                (Or.inr (Or.inl ⟨relation, hrelation, next, hnext, hnote⟩)))
            have hscanned := tokenCause?_of_scanNotes
              (List.eq_nil_iff_forall_not_mem.mpr fun note => (hbehind note).1)
            refine ⟨next, rfl, ?_⟩
            rw [← htokens]
            exact ih (unplaced_request next options.includeKeys relation.segments) hscanned
              fun note => (hbehind note).2
      · rw [← walked_eq_unnamed hrequest] at hname
        refine ih rfl (fun token htoken => ?_) fun note hnote =>
          hnotes note (mem_notes_succ.mpr (Or.inr (Or.inr ⟨name, hname, next, hnext, hnote⟩)))
        rw [List.mem_singleton.mp htoken]
        rfl

/-! ### Balanced selections -/

/-- Nothing is noted about balanced bodies whose tokens nothing is to be noted about. -/
lemma scanNotes_eq_nil {keysMode : Bool} {segments : List Segment}
    (hbalanced : ∀ segment ∈ segments, Balanced segment.text.toList)
    (hscan : ∀ token ∈ segments.flatMap fun segment => tokens segment.text.toList,
      place.tokenCause? keysMode token = none) :
    place.scanNotes keysMode segments = [] := by
  refine List.flatMap_eq_nil_iff.mpr fun segment hsegment => ?_
  rw [segmentNotes, (hbalanced segment hsegment).issues_eq_nil, List.map_nil, List.nil_append]
  refine List.filterMap_eq_nil_iff.mpr fun located hlocated => ?_
  rw [tokenNote?, hscan, Option.map_none]
  refine List.mem_flatMap.mpr ⟨segment, hsegment, ?_⟩
  rw [← map_token_tokenize]
  exact List.mem_map_of_mem hlocated

lemma balanced_of_mem_bodies {tokens : List Token} (h : BalancedBodies tokens) {name body : String}
    (hbody : body ∈ bodies name tokens) : Balanced body.toList :=
  h _ _ (mem_bodies.mp hbody)

/-- The bodies of a relation are balanced texts, so the bodies in them are balanced as well. -/
lemma balancedBodies_bodyTokens {tokens : List Token} (h : BalancedBodies tokens)
    (name : String) : BalancedBodies (bodyTokens name tokens) := by
  intro other body hmem
  obtain ⟨inner, hinner, hmem⟩ := List.mem_flatMap.mp hmem
  exact (balanced_of_mem_bodies h hinner).bodies other body hmem

/-- **Quiet tokens with balanced bodies** leave nothing to note below their level. -/
lemma notes_eq_nil_of_quiet {tokens : List Token}
    (hrequest : request.unplaced = place.asked options.includeKeys tokens)
    (hquiet : Quiet options.includeKeys room place tokens) (hbodies : BalancedBodies tokens) :
    Place.notes options room place request = [] := by
  induction room generalizing place request tokens with
  | zero =>
      obtain ⟨-, hnamed, hunnamed⟩ := hquiet
      refine List.eq_nil_iff_forall_not_mem.mpr fun note hnote => ?_
      rcases mem_notes_zero.mp hnote with ⟨relation, hrelation, -⟩ | ⟨name, hname, -⟩
      · have hname := (named_of_mem_relations hrequest hrelation).1
        rw [hnamed] at hname
        cases hname
      · rw [walked_eq_unnamed hrequest, hunnamed] at hname
        cases hname
  | succ room ih =>
      obtain ⟨-, hnamed, hunnamed⟩ := hquiet
      refine List.eq_nil_iff_forall_not_mem.mpr fun note hnote => ?_
      rcases mem_notes_succ.mp hnote with ⟨relation, hrelation, hnone, -⟩ |
        ⟨relation, hrelation, next, hnext, hnote⟩ | ⟨name, hname, next, hnext, hnote⟩
      · obtain ⟨next, hnext, -⟩ := hnamed _ (named_of_mem_relations hrequest hrelation).1
        rw [hnone] at hnext
        cases hnext
      · obtain ⟨hname, hsegments⟩ := named_of_mem_relations hrequest hrelation
        obtain ⟨_, hsame, hbelow⟩ := hnamed _ hname
        cases hnext.symm.trans hsame
        have htokens := flatMap_tokens_segments hsegments
        have hscan : next.scanNotes options.includeKeys relation.segments = [] := by
          refine scanNotes_eq_nil (fun segment hsegment => ?_) (htokens ▸ hbelow.here)
          have hbody : segment.text ∈ bodies relation.name tokens :=
            hsegments ▸ List.mem_map_of_mem hsegment
          exact balanced_of_mem_bodies hbodies hbody
        have hnotes := ih (unplaced_request next options.includeKeys relation.segments)
          (htokens ▸ hbelow) (htokens ▸ balancedBodies_bodyTokens hbodies relation.name)
        rw [hscan, hnotes] at hnote
        rcases hnote with hnote | hnote <;> cases hnote
      · rw [walked_eq_unnamed hrequest] at hname
        have hall : BalancedBodies [.all] := by
          intro name body hmem
          cases List.mem_singleton.mp hmem
        rw [ih rfl (hunnamed name hname next hnext) hall] at hnote
        cases hnote

end Place

/-- **A query without notes** has a quiet selection. -/
lemma Compiler.quiet_of_notes {compiler : Compiler} {query : Query}
    (h : compiler.notes query = []) :
    Place.Quiet compiler.options.includeKeys compiler.options.maxDepth compiler.root
      (compiler.tokens query) := by
  obtain ⟨hscan, hbelow⟩ := List.append_eq_nil_iff.mp h
  have hnotes := List.eq_nil_iff_forall_not_mem.mp hbelow
  rw [request] at hnotes
  cases hall : compiler.selectsAll query with
  | true =>
      -- the short way asks for what the one token asks for
      rw [hall, if_pos rfl] at hnotes
      rw [tokens, tokens_of_isAll hall]
      refine Place.quiet_of_notes rfl (fun token htoken => ?_) hnotes
      rw [List.mem_singleton.mp htoken]
      rfl
  | false =>
      rw [hall, if_neg Bool.false_ne_true] at hnotes hscan
      have htokens : ((compiler.segments query).flatMap fun segment =>
          Selection.tokens segment.text.toList) = compiler.tokens query := by
        rw [segments, List.flatMap_singleton, tokens]
      rw [← htokens]
      exact Place.quiet_of_notes (unplaced_request _ _ _) (Place.tokenCause?_of_scanNotes hscan)
        hnotes

/-- **A balanced selection** that is quiet leaves nothing to note. -/
lemma Compiler.notes_eq_nil {compiler : Compiler} {query : Query}
    (hbalanced : Balanced (compiler.selection query).toList)
    (hquiet : Place.Quiet compiler.options.includeKeys compiler.options.maxDepth compiler.root
      (compiler.tokens query)) :
    compiler.notes query = [] := by
  rw [notes, request]
  cases hall : compiler.selectsAll query with
  | true =>
      rw [tokens, tokens_of_isAll hall] at hquiet
      rw [if_pos rfl, if_pos rfl, List.nil_append]
      refine Place.notes_eq_nil_of_quiet rfl hquiet fun name body hmem => ?_
      cases List.mem_singleton.mp hmem
  | false =>
      have htokens : ((compiler.segments query).flatMap fun segment =>
          Selection.tokens segment.text.toList) = compiler.tokens query := by
        rw [segments, List.flatMap_singleton, tokens]
      rw [if_neg Bool.false_ne_true, if_neg Bool.false_ne_true, List.append_eq_nil_iff]
      refine ⟨Place.scanNotes_eq_nil ?_ (htokens ▸ hquiet.here), ?_⟩
      · intro segment hsegment
        cases List.mem_singleton.mp hsegment
        exact hbalanced
      · exact Place.notes_eq_nil_of_quiet (unplaced_request _ _ _) (htokens ▸ hquiet)
          (htokens ▸ hbalanced.bodies)

end FieldSelection
