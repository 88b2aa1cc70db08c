import FieldSelection.Proofs.Level.Notes
import FieldSelection.Proofs.Level.Reach

/-!
What levels answer.

A projection asks a level whether it selects a field, and what it follows a relation with.
The answers are read off the tokens of the level.

* `Place.selects_compiled`: the fields that a level selects outside keys mode.
* `Place.include?_compiled_succ`: what a level lists for a relation.
* `Place.child?_compiled_zero`, `Place.child?_compiled_succ`: what it follows a relation
  with, without and with room for levels.
* `Place.Quiet.below`: nothing is noted about the levels that are listed, if nothing is
  noted about the level.
* `Compiler.answers_compile`: the answers of a whole descriptor.
-/

namespace FieldSelection

open FieldSelection.Selection

namespace Place

variable (options : CompileOptions) (query : Query) {room : Nat} {place : Place}
  {tokens : List Token} {name : String}

/-! ### Fields -/

/-- **The fields of a level** outside keys mode: the ones that are asked for, or, where some
are left out or all are asked for, the declared ones less the excluded ones. -/
lemma selects_compiled (hkeys : options.includeKeys = false) :
    (place.compiled options query room tokens).selects name =
      if (place.asked false tokens).isComplement then
        place.fields?.all (fun fields => name ∈ fields)
          && decide (name ∉ (place.asked false tokens).excluded)
      else decide (name ∈ (place.asked false tokens).attributes) := by
  rw [compiled_eq_level, hkeys]
  cases hcomplement : (place.asked false tokens).isComplement with
  | false => simp [Descriptor.selects, level, attributes?, hcomplement]
  | true =>
      cases hfields : place.fields? with
      | none => simp [Descriptor.selects, level, attributes?, hcomplement, hkeys, hfields]
      | some fields => simp [Descriptor.selects, level, attributes?, hcomplement, hkeys, hfields]

/-! ### Relations -/

/-- Of the levels behind relations, the one that is found under a name is behind the relation
of that name. -/
lemma find?_below (bodies : String → List Token) (names : List String) :
    (names.filterMap fun other => place.below options query room other (bodies other)).find?
        (·.association = some name)
      = if name ∈ names then place.below options query room name (bodies name) else none := by
  induction names with
  | nil => rfl
  | cons other names ih =>
      cases hother : place.enter? other with
      | none =>
          have hnone : place.below options query room other (bodies other) = none := by
            rw [below, hother, Option.map_none]
          simp only [List.filterMap_cons, hnone, ih]
          by_cases hname : name = other
          · rw [hname, hnone, ite_self, ite_self]
          · simp [hname]
      | some next =>
          have hsome : place.below options query room other (bodies other)
              = some ((next.compiled options query room (bodies other)).under other) := by
            rw [below, hother, Option.map_some]
          simp only [List.filterMap_cons, hsome, List.find?_cons]
          by_cases hname : other = name
          · subst hname
            simp [Descriptor.under, hsome]
          · simp [Descriptor.under, hname, Ne.symm hname, ih]

/-- **A relation is listed** if tokens name it or a token `all` adds it. -/
lemma include?_compiled_succ :
    (place.compiled options query (room + 1) tokens).include? name
      = if name ∈ relationNames tokens ∨ name ∈ place.unnamed tokens then
          place.below options query room name (tokensBelow name tokens)
        else none := by
  rw [Descriptor.include?, includes_compiled, List.find?_append,
    find?_below options query (bodyTokens · tokens), find?_below options query fun _ => [.all],
    tokensBelow]
  by_cases hnamed : name ∈ relationNames tokens
  · have hunnamed : name ∉ place.unnamed tokens := fun h => (notMem_of_mem_unnamed h).1 hnamed
    simp [hnamed, hunnamed]
  · simp [hnamed]

/-- Without room nothing is listed, so that relations are followed in full or not at all. -/
lemma child?_compiled_zero :
    (place.compiled options query 0 tokens).child? name
      = if .all ∈ tokens ∧ place.shape = none then some .everything else none := by
  have hnone : (place.compiled options query 0 tokens).include? name = none := rfl
  simp [Descriptor.child?, hnone, includeAll_compiled]

/-- **What a relation is followed with**: the level that is listed for it, or everything where
there is no shape to list relations from. -/
lemma child?_compiled_succ {next : Place} (hnext : place.enter? name = some next) :
    (place.compiled options query (room + 1) tokens).child? name
      = if name ∈ relationNames tokens ∨ name ∈ place.unnamed tokens then
          some ((next.compiled options query room (tokensBelow name tokens)).under name)
        else if .all ∈ tokens ∧ place.shape = none then some .everything else none := by
  rw [Descriptor.child?, include?_compiled_succ, below, hnext]
  split_ifs <;> simp_all [includeAll_compiled]

/-! ### Notes -/

/-- **Nothing is noted below** a level that nothing is noted about. -/
lemma Quiet.below {keysMode : Bool} {next : Place} (h : Quiet keysMode (room + 1) place tokens)
    (hnext : place.enter? name = some next)
    (hname : name ∈ relationNames tokens ∨ name ∈ place.unnamed tokens) :
    Quiet keysMode room next (tokensBelow name tokens) := by
  rw [tokensBelow]
  split
  · next hnamed =>
    obtain ⟨other, hother, hquiet⟩ := h.2.1 name hnamed
    rw [Option.some.inj (hnext.symm.trans hother)]
    exact hquiet
  · next hnamed => exact h.2.2 name (hname.resolve_left hnamed) next hnext

end Place

/-- What a level answers, the descriptor of a query answers at its root. -/
lemma Compiler.answers_compile (compiler : Compiler) (query : Query) (name : String) :
    (compiler.compile query).selects name
        = (compiler.root.compiled compiler.options query compiler.options.maxDepth
            (compiler.tokens query)).selects name ∧
      (compiler.compile query).child? name
        = (compiler.root.compiled compiler.options query compiler.options.maxDepth
            (compiler.tokens query)).child? name := by
  rw [← compiler.bare_compile]
  exact ⟨rfl, rfl⟩

end FieldSelection
