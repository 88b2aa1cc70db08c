import FieldSelection.Proofs.Selection.Issues

/-!
Parentheses matched with a stack.

An opening parenthesis is put on a stack, and a closing one takes away the one on top, which it
matches. A scan keeps no stack: it counts levels inside one body, jumps over the body, and takes
the rest of the text for a body that is not closed. What it complains about is what a stack leaves
unmatched all the same.

* `Parens`: the parentheses without a match so far, and how they change with a character and a
  text (`Parens.step`, `Parens.read`); `unmatched` collects those of a text.
* `Parens.Ascending`: they are kept in the order of the text, step by step.
* `Parens.read_body`: inside a body, the stack grows and shrinks with the nesting level.
* `issues_eq_unmatched`: the issues of a text are its unmatched parentheses, but only the leftmost
  one of the opening ones.
-/

namespace FieldSelection.Selection

open FieldSelection.Text

/-- **The parentheses without a match** so far, told by their places. -/
structure Parens where
  /-- The opening ones, the last one on top. -/
  stack : List Nat
  /-- The closing ones that have found the stack empty, in the order of the text. -/
  stray : List Nat
  deriving DecidableEq, Repr

namespace Parens

/-- One more character, at a place. -/
def step (parens : Parens) (place : Nat) (c : Char) : Parens :=
  if c = '(' then { parens with stack := place :: parens.stack }
  else if c = ')' then
    match parens.stack with
    | [] => { parens with stray := parens.stray ++ [place] }
    | _ :: stack => { parens with stack }
  else parens

/-- One more text, which starts at a place. -/
def read (parens : Parens) (place : Nat) : List Char → Parens
  | [] => parens
  | c :: text => (parens.step place c).read (place + c.utf8Size) text

/-- All places, in the order of the text. -/
def places (parens : Parens) : List Nat :=
  parens.stray ++ parens.stack.reverse

/-- What there is to complain about: every closing parenthesis, and the leftmost opening one, which
is at the bottom of the stack. -/
def issues (parens : Parens) : List Issue :=
  parens.stray.map .strayClose ++ parens.stack.getLast?.toList.map .unmatchedOpen

lemma read_append (parens : Parens) (place : Nat) (left right : List Char) :
    parens.read place (left ++ right)
      = (parens.read place left).read (place + bytes left) right := by
  induction left generalizing parens place with
  | nil => rfl
  | cons c left ih =>
      rw [List.cons_append, read, read, ih, bytes_cons, Nat.add_assoc]

/-! ### The order of the places -/

/-- A character leaves the places as they are, adds its own place behind all others, or takes the
last one away. -/
lemma places_step (parens : Parens) (place : Nat) (c : Char) :
    (parens.step place c).places = parens.places ∨
      (parens.step place c).places = parens.places ++ [place] ∨
      ∃ last, parens.places = (parens.step place c).places ++ [last] := by
  obtain ⟨stack, stray⟩ := parens
  rw [step]
  split
  · exact Or.inr (Or.inl (by simp [places]))
  · split
    · cases stack with
      | nil => exact Or.inr (Or.inl (by simp [places]))
      | cons top stack => exact Or.inr (Or.inr ⟨top, by simp [places]⟩)
    · exact Or.inl rfl

/-- The places are those of a text up to `place`, in its order. -/
def Ascending (place : Nat) (parens : Parens) : Prop :=
  parens.places.Pairwise (· < ·) ∧ ∀ other ∈ parens.places, other < place

/-- A character keeps the order. -/
lemma Ascending.step {place : Nat} {parens : Parens} (h : parens.Ascending place) (c : Char) :
    (parens.step place c).Ascending (place + c.utf8Size) := by
  obtain ⟨hpairwise, hlt⟩ := h
  have hpos : place < place + c.utf8Size := Nat.lt_add_of_pos_right c.utf8Size_pos
  rw [Ascending]
  rcases parens.places_step place c with hsame | hadded | ⟨last, hremoved⟩
  · rw [hsame]
    exact ⟨hpairwise, fun other hother => (hlt other hother).trans hpos⟩
  · rw [hadded]
    refine ⟨List.pairwise_append.mpr ⟨hpairwise, List.pairwise_singleton _ _, ?_⟩, ?_⟩
    · intro other hother _ hmem
      rw [List.mem_singleton.mp hmem]
      exact hlt other hother
    · intro other hother
      rcases List.mem_append.mp hother with hother | hother
      · exact (hlt other hother).trans hpos
      · rwa [List.mem_singleton.mp hother]
  · rw [hremoved] at hpairwise hlt
    exact ⟨(List.pairwise_append.mp hpairwise).1,
      fun other hother => (hlt other (List.mem_append_left _ hother)).trans hpos⟩

/-- So does a text. -/
lemma Ascending.read {place : Nat} {parens : Parens} (h : parens.Ascending place)
    (text : List Char) : (parens.read place text).Ascending (place + bytes text) := by
  induction text generalizing place parens with
  | nil => exact h
  | cons c text ih =>
      rw [Parens.read, bytes_cons, ← Nat.add_assoc]
      exact ih (h.step c)

/-- What a text adds to the stack are places in it. -/
lemma mem_stack_read {parens : Parens} {place other : Nat} {text : List Char}
    (h : other ∈ (parens.read place text).stack) : other ∈ parens.stack ∨ place ≤ other := by
  induction text generalizing parens place with
  | nil => exact Or.inl h
  | cons c text ih =>
      rcases ih h with h | h
      · rw [Parens.step] at h
        split at h
        · exact (List.mem_cons.mp h).symm.imp_right fun heq => (Nat.le_of_eq heq.symm)
        · split at h
          · split at h
            · exact Or.inl h
            · next hstack => exact Or.inl (hstack ▸ List.mem_cons_of_mem _ h)
          · exact Or.inl h
      · exact Or.inr (Nat.le_trans (Nat.le_add_right _ _) h)

/-! ### Words and bodies -/

/-- In a word, all closing parentheses are stray ones. -/
lemma read_word {word : List Char} (hopen : '(' ∉ word) (stray : List Nat) (place : Nat) :
    ∃ closes, read ⟨[], stray⟩ place word = ⟨[], stray ++ closes⟩ ∧
      strayCloses place word = closes.map .strayClose := by
  induction word generalizing stray place with
  | nil => exact ⟨[], by rw [read, List.append_nil], rfl⟩
  | cons c word ih =>
      rw [List.mem_cons, not_or] at hopen
      rw [read, step, if_neg (Ne.symm hopen.1), strayCloses]
      split
      · obtain ⟨closes, hread, hcloses⟩ := ih hopen.2 (stray ++ [place]) (place + c.utf8Size)
        exact ⟨place :: closes, by rw [hread, List.append_assoc, List.singleton_append],
          by rw [hcloses, List.map_cons]⟩
      · exact ih hopen.2 stray _

/-- Inside a body, a character changes the height of the stack like the nesting level, and what
lies below stays untouched. -/
lemma step_body {c : Char} {level next : Nat} (h : nest level c = some next) {inner : List Nat}
    (hinner : inner.length = level) (stack stray : List Nat) (place : Nat) :
    ∃ inner' : List Nat, inner'.length = next ∧
      step ⟨inner ++ stack, stray⟩ place c = ⟨inner' ++ stack, stray⟩ := by
  subst hinner
  rw [nest] at h
  rw [step]
  split
  · next ho =>
    rw [if_pos ho] at h
    exact ⟨place :: inner, Option.some.inj h, rfl⟩
  · next ho =>
    rw [if_neg ho] at h
    split
    · next hc =>
      rw [if_pos hc] at h
      cases inner with
      | nil => cases h
      | cons top inner => exact ⟨inner, Option.some.inj h, rfl⟩
    · next hc =>
      rw [if_neg hc] at h
      exact ⟨inner, Option.some.inj h, rfl⟩

/-- **Inside a body**, so does a text. -/
lemma read_body {body : List Char} {level next : Nat} (h : nestAll level body = some next)
    {inner : List Nat} (hinner : inner.length = level) (stack stray : List Nat) (place : Nat) :
    ∃ inner' : List Nat, inner'.length = next ∧
      read ⟨inner ++ stack, stray⟩ place body = ⟨inner' ++ stack, stray⟩ := by
  induction body generalizing level inner place with
  | nil =>
      cases h
      exact ⟨inner, hinner, rfl⟩
  | cons c body ih =>
      obtain ⟨mid, hmid, hbody⟩ := Option.bind_eq_some_iff.mp h
      obtain ⟨inner', hinner', hstep⟩ := step_body hmid hinner stack stray place
      rw [read, hstep]
      exact ih hbody hinner' _

/-- A balanced text leaves the stack as it is. -/
lemma read_balanced {text : List Char} (h : Balanced text) (parens : Parens) (place : Nat) :
    parens.read place text = parens := by
  obtain ⟨inner, hinner, hread⟩ :=
    read_body (h.nestAll_eq 0) List.length_nil parens.stack parens.stray place
  rw [List.length_eq_zero_iff.mp hinner] at hread
  exact hread

/-- A body that is not closed leaves its opening parenthesis at the bottom of the stack. -/
lemma read_unclosed {name body : List Char} {level : Nat} (hopen : '(' ∉ name)
    (hbody : nestAll 0 body = some level) (stray : List Nat) (place : Nat) :
    ∃ closes inner, read ⟨[], stray⟩ place (name ++ '(' :: body)
        = ⟨inner ++ [place + bytes name], stray ++ closes⟩ ∧
      strayCloses place name = closes.map .strayClose := by
  obtain ⟨closes, hread, hcloses⟩ := read_word hopen stray place
  obtain ⟨inner, -, hinner⟩ := read_body hbody List.length_nil [place + bytes name]
    (stray ++ closes) (place + bytes name + '('.utf8Size)
  have hpush : step ⟨[], stray ++ closes⟩ (place + bytes name) '('
      = ⟨[] ++ [place + bytes name], stray ++ closes⟩ := rfl
  exact ⟨closes, inner, by rw [read_append, hread, read, hpush, hinner], hcloses⟩

end Parens

/-- **The unmatched parentheses** of a text. -/
def unmatched (text : List Char) : Parens :=
  Parens.read ⟨[], []⟩ 0 text

lemma unmatched_append (front rest : List Char) :
    unmatched (front ++ rest) = (unmatched front).read (bytes front) rest := by
  rw [unmatched, Parens.read_append, Nat.zero_add, unmatched]

/-- Behind a text that leaves nothing open, the stack is empty again. -/
lemma unmatched_eq_of_stack {front : List Char} (h : (unmatched front).stack = []) :
    unmatched front = ⟨[], (unmatched front).stray⟩ := by
  rw [← h]

/-- A word opens nothing. -/
lemma stack_append_word {front word : List Char} (h : (unmatched front).stack = [])
    (hopen : '(' ∉ word) : (unmatched (front ++ word)).stack = [] := by
  obtain ⟨closes, hread, -⟩ := Parens.read_word hopen (unmatched front).stray (bytes front)
  rw [unmatched_append, unmatched_eq_of_stack h, hread]

/-- A word and a balanced text behind it leave nothing open. -/
lemma stack_append_balanced {front word text : List Char} (h : (unmatched front).stack = [])
    (hopen : '(' ∉ word) (htext : Balanced text) :
    (unmatched (front ++ (word ++ text))).stack = [] := by
  rw [← List.append_assoc, unmatched_append, Parens.read_balanced htext]
  exact stack_append_word h hopen

/-! ### What a scan complains about -/

/-- The issues of pieces are the unmatched parentheses of their text. -/
lemma Cut.issues_eq {list : List Piece} (hcut : Cut list) (stray : List Nat) (place : Nat) :
    stray.map .strayClose ++ issuesFrom place list
      = (Parens.read ⟨[], stray⟩ place (list.flatMap Piece.source)).issues := by
  induction hcut generalizing stray place with
  | @last word _ hopen =>
      obtain ⟨closes, hread, hcloses⟩ := Parens.read_word hopen stray place
      simp [issuesFrom, locate, Piece.source, Piece.issues, hread, hcloses, Parens.issues]
  | @word word list _ hopen _ ih =>
      obtain ⟨closes, hread, hcloses⟩ := Parens.read_word hopen stray place
      have hcomma : Balanced [','] := by decide
      rw [List.flatMap_cons, Parens.read_append, Piece.source, if_pos rfl, Parens.read_append,
        hread, Parens.read_balanced hcomma, ← ih, issuesFrom_cons, Piece.issues, hcloses,
        List.map_append, List.append_assoc]
      rfl
  | @closed name body list _ hopen hbody _ ih =>
      obtain ⟨closes, hread, hcloses⟩ := Parens.read_word hopen stray place
      rw [List.flatMap_cons, Parens.read_append, Piece.source, if_pos rfl, Parens.read_append,
        hread, Parens.read_balanced hbody.parenthesized, ← ih, issuesFrom_cons, Piece.issues,
        hcloses, if_pos rfl, List.append_nil, List.map_append, List.append_assoc]
      rfl
  | @unclosed name body level _ hopen hbody =>
      obtain ⟨closes, inner, hread, hcloses⟩ := Parens.read_unclosed hopen hbody stray place
      rw [List.flatMap_singleton, Piece.source, if_neg Bool.false_ne_true, List.append_nil, hread]
      simp [issuesFrom, locate, Piece.issues, hcloses, Parens.issues]

/-- **The issues of a text** are the parentheses that a stack leaves unmatched: all closing ones,
one after the other, and then the leftmost opening one. The places are kept in ascending order, so
that the leftmost opening one is at the bottom of the stack. In particular, exactly the balanced
texts have no issues. -/
theorem issues_eq_unmatched (text : List Char) :
    (tokenize text).issues
        = (unmatched text).stray.map .strayClose ++
            (unmatched text).stack.getLast?.toList.map .unmatchedOpen ∧
      ((unmatched text).stray ++ (unmatched text).stack.reverse).Pairwise (· < ·) ∧
      ((tokenize text).issues = [] ↔ Balanced text) := by
  have hstart : (⟨[], []⟩ : Parens).Ascending 0 :=
    ⟨List.Pairwise.nil, fun _ h => absurd h List.not_mem_nil⟩
  refine ⟨?_, (hstart.read text).1, issues_eq_nil_iff⟩
  have hissues := (cut_pieces text).issues_eq [] 0
  rwa [flatMap_source_pieces, List.map_nil, List.nil_append] at hissues

end FieldSelection.Selection
