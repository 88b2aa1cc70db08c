import Mathlib.Data.List.Forall2
import Mathlib.Tactic.Common
import FieldSelection.Proofs.Json.Merge
import FieldSelection.Shape.Reader

/-!
The grammar of shapes in JSON.

An object denotes a relation to one object, and an array with just an object in it a relation to
many; `true` and a few words denote fields. Whatever does not fit in is refused, and of several
entries that do not fit the first one in the document is blamed.

* `Marks`: which words mark a field, and as what.
* `Json.Denotes`: what a value denotes, entry by entry; `Node.ofEntry_eq_ok_iff` reads just that.
* `Json.deepEntries`: all entries of a value in the order of the document; `Json.Fits`: the values
  that may stand under a key.
* `Node.failure?_ofEntry`: reading fails at the first entry that does not fit.
* `Node.ofJson_exact`: what is read as a shape, as which one, and what is said otherwise.
* `Shape.ofEntries_eq_foldlM`: reading declares the entries of an object one after the other.
-/

namespace FieldSelection

/-! ### Words -/

/-- The words that mark a field, with the roles that they mark. -/
def markerWords : List (String × Option KeyRole) :=
  [("field", none), ("pk", some .primary), ("primary", some .primary),
    ("fk", some .foreign), ("foreign", some .foreign)]

/-- **A word marks a field** if it is one of the `markerWords`, in any mixture of upper and lower
case. -/
def Marks (word : String) (role : Option KeyRole) : Prop :=
  ∃ marker, (marker, role) ∈ markerWords ∧ word.toList.map Char.toLower = marker.toList

lemma marker?_eq_some_iff_marks {word : String} {role : Option KeyRole} :
    marker? word = some role ↔ Marks word role := by
  have hmarks : Marks word role ↔
      (String.ofList (word.toList.map Char.toLower), role) ∈ markerWords := by
    constructor
    · rintro ⟨marker, hmem, hword⟩
      rwa [hword, String.ofList_toList]
    · intro hmem
      exact ⟨_, hmem, String.toList_ofList.symm⟩
  rw [hmarks, marker?]
  generalize String.ofList (word.toList.map Char.toLower) = lower
  simp only [markerWords, List.mem_cons, List.not_mem_nil, or_false, Prod.mk.injEq]
  split_ifs with hfield hprimary hforeign
  · simp [hfield, eq_comm]
  · rcases hprimary with rfl | rfl <;> simp [eq_comm]
  · rcases hforeign with rfl | rfl <;> simp [eq_comm]
  · simp_all

/-! ### What values denote -/

namespace Json

/-- **What a value denotes** as an entry of a shape: fields have a marker, objects and arrays lead
to what their entries denote, under the same keys and in the same order. -/
inductive Denotes : Json → Node → Prop where
  | yes : Denotes (.bool true) (.field none)
  | word {word : String} {role : Option KeyRole} (h : Marks word role) :
      Denotes (.string word) (.field role)
  | one {entries : List (String × Json)} {shape : Shape}
      (hkeys : Entries.keys shape = Entries.keys entries)
      (h : List.Forall₂ (fun entry declared => Denotes entry.2 declared.2) entries shape) :
      Denotes (.object entries) (.one shape)
  | many {entries : List (String × Json)} {shape : Shape}
      (h : Denotes (.object entries) (.one shape)) :
      Denotes (.array [.object entries]) (.many shape)

/-- **The values that may stand at the root**: an object, or an array with just an object in it. -/
def IsRoot (value : Json) : Prop :=
  ∃ entries, value = .object entries ∨ value = .array [.object entries]

/-- **The values that may stand under a key**, whatever is in them. -/
inductive Fits : Json → Prop where
  | yes : Fits (.bool true)
  | word {word : String} {role : Option KeyRole} (h : Marks word role) : Fits (.string word)
  | root {value : Json} (h : value.IsRoot) : Fits value

mutual

/-- **All entries of a value** in the order of the document, those of an inner object behind the
entry that it belongs to. -/
def deepEntries : Json → List (String × Json)
  | .array items => itemsEntries items
  | .object entries => entriesEntries entries
  | _ => []

/-- All entries of a list of values. -/
def itemsEntries : List Json → List (String × Json)
  | [] => []
  | value :: items => value.deepEntries ++ itemsEntries items

/-- All entries of a list of entries. -/
def entriesEntries : List (String × Json) → List (String × Json)
  | [] => []
  | (key, value) :: entries => (key, value) :: (value.deepEntries ++ entriesEntries entries)

end

/-- **The first misfit**: an entry that does not fit, while all entries in front of it do. -/
def FirstMisfit (value : Json) (key : String) (misfit : Json) : Prop :=
  ∃ before after, value.deepEntries = before ++ (key, misfit) :: after ∧
    (∀ entry ∈ before, entry.2.Fits) ∧ ¬ misfit.Fits

/-- What a value that does not fit is refused with. -/
def blame (key : String) : Json → ShapeError
  | .array _ => .invalidMany key
  | value => .invalidMarker key value

/-- **Why a value is refused**: it may not stand at the root, or there is an entry that does not
fit, of which the first one is blamed. -/
inductive Refused (value : Json) : ShapeError → Prop where
  | root (h : ¬ value.IsRoot) : Refused value .invalidRoot
  | entry (hroot : value.IsRoot) {key : String} {misfit : Json}
      (h : value.FirstMisfit key misfit) : Refused value (misfit.blame key)

/-- The induction principle of shapes in JSON: an object, alone or alone in an array, inherits a
property from its entries, and other values have it by themselves. -/
@[elab_as_elim]
theorem rootInd {P : Json → Prop}
    (one : ∀ entries : List (String × Json), (∀ entry ∈ entries, P entry.2) → P (.object entries))
    (many : ∀ entries : List (String × Json), (∀ entry ∈ entries, P entry.2) →
      P (.array [.object entries]))
    (other : ∀ value : Json, ¬ value.IsRoot → P value) (value : Json) : P value := by
  have hatom : ∀ {value : Json}, ¬ value.IsRoot →
      P value ∧ ∀ entries, value = .object entries → ∀ entry ∈ entries, P entry.2 :=
    fun h => ⟨other _ h, fun entries heq => absurd ⟨entries, Or.inl heq⟩ h⟩
  -- the entries of an object in an array are two levels further in
  refine (Json.rec
    (motive_1 := fun value =>
      P value ∧ ∀ entries, value = .object entries → ∀ entry ∈ entries, P entry.2)
    (motive_2 := fun items =>
      ∀ item ∈ items, ∀ entries, item = .object entries → ∀ entry ∈ entries, P entry.2)
    (motive_3 := fun entries => ∀ entry ∈ entries, P entry.2)
    (motive_4 := fun entry => P entry.2)
    ?null ?bool ?number ?string ?array ?object ?noItem ?item ?noEntry ?entry ?pair value).1
  case null | bool | number | string =>
    intros
    exact hatom (by rintro ⟨entries, h | h⟩ <;> cases h)
  case array =>
    intro items ih
    by_cases hroot : (Json.array items).IsRoot
    · obtain ⟨entries, h | h⟩ := hroot
      · cases h
      · cases h
        exact ⟨many entries (ih _ List.mem_cons_self entries rfl), nofun⟩
    · exact hatom hroot
  case object =>
    intro entries ih
    exact ⟨one entries ih, fun _ heq => by cases heq; exact ih⟩
  case noItem => exact fun _ h => absurd h List.not_mem_nil
  case item => exact fun _ _ hfirst hrest => List.forall_mem_cons.mpr ⟨hfirst.2, hrest⟩
  case noEntry => exact fun _ h => absurd h List.not_mem_nil
  case entry => exact fun _ _ hfirst hrest => List.forall_mem_cons.mpr ⟨hfirst, hrest⟩
  case pair => exact fun _ _ h => h.1

lemma denotes_object_iff {entries : List (String × Json)} {shape : Shape} :
    (Json.object entries).Denotes (.one shape) ↔
      Entries.keys shape = Entries.keys entries ∧
        List.Forall₂ (fun entry declared => entry.2.Denotes declared.2) entries shape := by
  constructor
  · intro h
    cases h with
    | one hkeys hall => exact ⟨hkeys, hall⟩
  · rintro ⟨hkeys, hall⟩
    exact .one hkeys hall

lemma Denotes.fits {value : Json} {node : Node} (h : value.Denotes node) : value.Fits := by
  cases h with
  | yes => exact .yes
  | word hmarks => exact .word hmarks
  | one _ _ => exact .root ⟨_, Or.inl rfl⟩
  | many _ => exact .root ⟨_, Or.inr rfl⟩

/-- A value denotes a relation if it may stand at the root, and a field otherwise. -/
lemma Denotes.isRelation_iff {value : Json} {node : Node} (h : value.Denotes node) :
    node.isRelation = true ↔ value.IsRoot := by
  cases h with
  | yes | word _ => exact iff_of_false nofun (by rintro ⟨_, h | h⟩ <;> cases h)
  | one _ _ => exact iff_of_true rfl ⟨_, Or.inl rfl⟩
  | many _ => exact iff_of_true rfl ⟨_, Or.inr rfl⟩

end Json

/-! ### What is read -/

lemma map_eq_ok_iff {ε α β : Type} {f : α → β} {result : Except ε α} {b : β} :
    result.map f = .ok b ↔ ∃ a, result = .ok a ∧ f a = b := by
  cases result <;> simp [Except.map]

lemma Node.ofEntry_word {word : String} {role : Option KeyRole} (h : Marks word role)
    (key : String) : Node.ofEntry key (.string word) = .ok (.field role) := by
  rw [ofEntry, marker?_eq_some_iff_marks.mpr h]

/-- A value that does not fit is refused, whatever is in it. -/
lemma Node.ofEntry_of_not_fits {value : Json} (h : ¬ value.Fits) (key : String) :
    Node.ofEntry key value = .error (value.blame key) := by
  cases value with
  | null | number n => rfl
  | bool b =>
      cases b with
      | true => exact absurd .yes h
      | false => rfl
  | string word =>
      rw [ofEntry]
      split
      · next role hrole => exact absurd (.word (marker?_eq_some_iff_marks.mp hrole)) h
      · rfl
  | object entries => exact absurd (.root ⟨entries, Or.inl rfl⟩) h
  | array items =>
      rcases items with _ | ⟨first, _ | ⟨second, rest⟩⟩
      · rfl
      · cases first with
        | object entries => exact absurd (.root ⟨entries, Or.inr rfl⟩) h
        | _ => rfl
      · cases first <;> rfl

lemma Shape.ofEntries_cons_eq_ok_iff {key : String} {value : Json}
    {entries : List (String × Json)} {shape : Shape} :
    Shape.ofEntries ((key, value) :: entries) = .ok shape ↔
      ∃ node rest, Node.ofEntry key value = .ok node ∧ Shape.ofEntries entries = .ok rest ∧
        (key, node) :: rest = shape := by
  rw [ofEntries]
  cases Node.ofEntry key value <;> cases Shape.ofEntries entries <;> simp [bind, Except.bind]

/-- Entries are read as what their object denotes, if their values are. -/
lemma Shape.ofEntries_eq_ok_iff_of_forall {entries : List (String × Json)}
    (h : ∀ entry ∈ entries, ∀ key node,
      Node.ofEntry key entry.2 = .ok node ↔ entry.2.Denotes node) {shape : Shape} :
    Shape.ofEntries entries = .ok shape ↔ (Json.object entries).Denotes (.one shape) := by
  rw [Json.denotes_object_iff]
  induction entries generalizing shape with
  | nil =>
      rw [ofEntries, List.forall₂_nil_left_iff]
      constructor
      · intro h
        cases h
        exact ⟨rfl, rfl⟩
      · rintro ⟨-, rfl⟩
        rfl
  | cons entry entries ih =>
      obtain ⟨key, value⟩ := entry
      obtain ⟨hvalue, hentries⟩ := List.forall_mem_cons.mp h
      rw [ofEntries_cons_eq_ok_iff]
      constructor
      · rintro ⟨node, rest, hnode, hrest, rfl⟩
        obtain ⟨hkeys, hall⟩ := (ih hentries).mp hrest
        exact ⟨congrArg (key :: ·) hkeys, .cons ((hvalue key node).mp hnode) hall⟩
      · rintro ⟨hkeys, hall⟩
        cases hall with
        | @cons _ declared _ rest hnode hall =>
            obtain ⟨name, node⟩ := declared
            have hname : name = key := (List.cons.inj hkeys).1
            have hrest : Entries.keys rest = Entries.keys entries := (List.cons.inj hkeys).2
            subst hname
            exact ⟨node, rest, (hvalue name node).mpr hnode, (ih hentries).mpr ⟨hrest, hall⟩, rfl⟩

/-- **A value under a key is read as what it denotes.** -/
lemma Node.ofEntry_eq_ok_iff (value : Json) (key : String) (node : Node) :
    Node.ofEntry key value = .ok node ↔ value.Denotes node := by
  induction value using Json.rootInd generalizing key node with
  | one entries ih =>
      rw [ofEntry, map_eq_ok_iff]
      constructor
      · rintro ⟨shape, hread, rfl⟩
        exact (Shape.ofEntries_eq_ok_iff_of_forall ih).mp hread
      · intro h
        cases h with
        | one hkeys hall =>
            exact ⟨_, (Shape.ofEntries_eq_ok_iff_of_forall ih).mpr (.one hkeys hall), rfl⟩
  | many entries ih =>
      rw [ofEntry, map_eq_ok_iff]
      constructor
      · rintro ⟨shape, hread, rfl⟩
        exact .many ((Shape.ofEntries_eq_ok_iff_of_forall ih).mp hread)
      · intro h
        cases h with
        | many hone => exact ⟨_, (Shape.ofEntries_eq_ok_iff_of_forall ih).mpr hone, rfl⟩
  | other value h =>
      by_cases hfits : value.Fits
      · cases hfits with
        | yes =>
            constructor
            · intro hread
              cases hread
              exact .yes
            · intro hdenotes
              cases hdenotes
              rfl
        | word hmarks =>
            constructor
            · intro hread
              rw [ofEntry_word hmarks] at hread
              cases hread
              exact .word hmarks
            · intro hdenotes
              cases hdenotes with
              | word hother => exact ofEntry_word hother key
        | root hroot => exact absurd hroot h
      · rw [ofEntry_of_not_fits hfits]
        exact iff_of_false nofun fun hdenotes => hfits hdenotes.fits

/-- **The entries of an object are read as what it denotes.** -/
lemma Shape.ofEntries_eq_ok_iff {entries : List (String × Json)} {shape : Shape} :
    Shape.ofEntries entries = .ok shape ↔ (Json.object entries).Denotes (.one shape) :=
  ofEntries_eq_ok_iff_of_forall fun entry _ => Node.ofEntry_eq_ok_iff entry.2

/-! ### What is refused -/

/-- The error of a result, if there is one. -/
def failure? {ε α : Type} : Except ε α → Option ε
  | .ok _ => none
  | .error error => some error

lemma failure?_eq_some_iff {ε α : Type} {result : Except ε α} {error : ε} :
    failure? result = some error ↔ result = .error error := by
  cases result <;> simp [failure?]

lemma failure?_eq_none_iff {ε α : Type} {result : Except ε α} :
    failure? result = none ↔ ∃ a, result = .ok a := by
  cases result <;> simp [failure?]

lemma failure?_map {ε α β : Type} (f : α → β) (result : Except ε α) :
    failure? (result.map f) = failure? result := by
  cases result <;> rfl

open Classical in
/-- What an entry is refused with on its own, whatever is in it. -/
noncomputable def Json.misfit? (entry : String × Json) : Option ShapeError :=
  if entry.2.Fits then none else some (entry.2.blame entry.1)

lemma Json.misfit?_eq_none_iff {entry : String × Json} :
    misfit? entry = none ↔ entry.2.Fits := by
  simp [misfit?]

lemma Json.misfit?_eq_some_iff {entry : String × Json} {error : ShapeError} :
    misfit? entry = some error ↔ ¬ entry.2.Fits ∧ entry.2.blame entry.1 = error := by
  simp [misfit?]

/-- What may stand at the root fits itself, so only the entries in it count. -/
lemma Json.findSome?_misfit?_root {value : Json} (h : value.IsRoot) (key : String) :
    ((key, value) :: value.deepEntries).findSome? misfit?
      = value.deepEntries.findSome? misfit? := by
  rw [List.findSome?_cons, misfit?_eq_none_iff.mpr (.root h)]

/-- Reading entries fails where reading one of them fails first. -/
lemma Shape.failure?_ofEntries {entries : List (String × Json)}
    (h : ∀ entry ∈ entries, ∀ key, failure? (Node.ofEntry key entry.2)
      = ((key, entry.2) :: entry.2.deepEntries).findSome? Json.misfit?) :
    failure? (Shape.ofEntries entries) = (Json.entriesEntries entries).findSome? Json.misfit? := by
  induction entries with
  | nil => rfl
  | cons entry entries ih =>
      obtain ⟨key, value⟩ := entry
      obtain ⟨hvalue, hentries⟩ := List.forall_mem_cons.mp h
      have hor : failure? (Shape.ofEntries ((key, value) :: entries))
          = (failure? (Node.ofEntry key value)).or (failure? (Shape.ofEntries entries)) := by
        rw [ofEntries]
        cases Node.ofEntry key value with
        | error _ => rfl
        | ok _ => cases Shape.ofEntries entries <;> rfl
      rw [hor, hvalue, ih hentries, Json.entriesEntries, ← List.cons_append, List.findSome?_append]

/-- **Reading fails at the first entry that does not fit.** -/
lemma Node.failure?_ofEntry (value : Json) (key : String) :
    failure? (Node.ofEntry key value)
      = ((key, value) :: value.deepEntries).findSome? Json.misfit? := by
  induction value using Json.rootInd generalizing key with
  | one entries ih =>
      rw [Json.findSome?_misfit?_root ⟨entries, Or.inl rfl⟩, ofEntry, failure?_map,
        Shape.failure?_ofEntries ih, Json.deepEntries]
  | many entries ih =>
      rw [Json.findSome?_misfit?_root ⟨entries, Or.inr rfl⟩, ofEntry, failure?_map,
        Shape.failure?_ofEntries ih, Json.deepEntries, Json.itemsEntries, Json.itemsEntries,
        List.append_nil, Json.deepEntries]
  | other value h =>
      rw [List.findSome?_cons]
      by_cases hfits : value.Fits
      · rw [Json.misfit?_eq_none_iff.mpr hfits]
        cases hfits with
        | yes => rfl
        | word hmarks =>
            rw [ofEntry_word hmarks]
            rfl
        | root hroot => exact absurd hroot h
      · rw [Json.misfit?_eq_some_iff.mpr ⟨hfits, rfl⟩, ofEntry_of_not_fits hfits]
        rfl

/-! ### Roots -/

/-- At the root there may be what may be under a key, but no field. -/
lemma Node.ofJson_eq_ofEntry {value : Json} (h : value.IsRoot) (key : String) :
    Node.ofJson value = Node.ofEntry key value := by
  obtain ⟨entries, rfl | rfl⟩ := h <;> rw [ofJson, ofEntry]

lemma Node.ofJson_of_not_isRoot {value : Json} (h : ¬ value.IsRoot) :
    Node.ofJson value = .error .invalidRoot := by
  unfold ofJson
  split
  · next entries => exact absurd ⟨entries, Or.inl rfl⟩ h
  · next entries => exact absurd ⟨entries, Or.inr rfl⟩ h
  · rfl

/-- What may stand at the root is refused for the first entry in it that does not fit. -/
lemma Node.failure?_ofJson {value : Json} (h : value.IsRoot) :
    failure? (Node.ofJson value) = value.deepEntries.findSome? Json.misfit? := by
  rw [ofJson_eq_ofEntry h "", failure?_ofEntry, Json.findSome?_misfit?_root h]

lemma Json.findSome?_misfit?_eq_some_iff {value : Json} {error : ShapeError} :
    value.deepEntries.findSome? misfit? = some error ↔
      ∃ key misfit, value.FirstMisfit key misfit ∧ misfit.blame key = error := by
  rw [List.findSome?_eq_some_iff]
  constructor
  · rintro ⟨before, ⟨key, misfit⟩, after, hentries, hmisfit, hbefore⟩
    obtain ⟨hfits, rfl⟩ := misfit?_eq_some_iff.mp hmisfit
    exact ⟨key, misfit, ⟨before, after, hentries,
      fun entry hm => misfit?_eq_none_iff.mp (hbefore entry hm), hfits⟩, rfl⟩
  · rintro ⟨key, misfit, ⟨before, after, hentries, hbefore, hfits⟩, rfl⟩
    exact ⟨before, (key, misfit), after, hentries, misfit?_eq_some_iff.mpr ⟨hfits, rfl⟩,
      fun entry hm => misfit?_eq_none_iff.mpr (hbefore entry hm)⟩

/-- **Shapes are read exactly**: a value is read if it may stand at the root and all entries in it
fit, it is read as what it denotes, and it is refused for the reason that there is otherwise. -/
theorem Node.ofJson_exact (value : Json) :
    ((∃ node, Node.ofJson value = .ok node) ↔
        value.IsRoot ∧ ∀ entry ∈ value.deepEntries, entry.2.Fits) ∧
      (∀ node, Node.ofJson value = .ok node ↔ value.Denotes node ∧ node.isRelation = true) ∧
      ∀ error, Node.ofJson value = .error error ↔ value.Refused error := by
  by_cases hroot : value.IsRoot
  · refine ⟨?_, fun node => ?_, fun error => ?_⟩
    · rw [← failure?_eq_none_iff, failure?_ofJson hroot, List.findSome?_eq_none_iff]
      simp only [Json.misfit?_eq_none_iff, hroot, true_and]
    · rw [ofJson_eq_ofEntry hroot "", ofEntry_eq_ok_iff]
      exact ⟨fun h => ⟨h, h.isRelation_iff.mpr hroot⟩, And.left⟩
    · rw [← failure?_eq_some_iff, failure?_ofJson hroot, Json.findSome?_misfit?_eq_some_iff]
      constructor
      · rintro ⟨key, misfit, hfirst, rfl⟩
        exact .entry hroot hfirst
      · intro h
        cases h with
        | root hnot => exact absurd hroot hnot
        | entry _ hfirst => exact ⟨_, _, hfirst, rfl⟩
  · rw [ofJson_of_not_isRoot hroot]
    refine ⟨iff_of_false nofun fun h => hroot h.1, fun node => ?_, fun error => ?_⟩
    · exact iff_of_false nofun fun h => hroot (h.1.isRelation_iff.mp h.2)
    · constructor
      · intro h
        cases h
        exact .root hroot
      · intro h
        cases h with
        | root _ => rfl
        | entry hnot _ => exact absurd hnot hroot

example : Node.ofJson (.array [.object [("a", .object [("b", .string "PK"), ("c", .array [])]),
    ("d", .int 3)]]) = .error (.invalidMany "c") :=
  rfl

/-! ### One after the other -/

/-- Reading one more entry of an object. -/
def Shape.readEntry (shape : Shape) (entry : String × Json) : Except ShapeError Shape :=
  (Node.ofEntry entry.1 entry.2).map (shape.insert entry.1)

/-- Entries that are read one after the other are merged with those that are there. -/
lemma Shape.foldlM_readEntry (entries : List (String × Json)) (shape : Shape) :
    entries.foldlM readEntry shape = (ofEntries entries).map (Entries.putAll shape) := by
  induction entries generalizing shape with
  | nil => rfl
  | cons entry entries ih =>
      obtain ⟨key, value⟩ := entry
      rw [List.foldlM_cons, readEntry, ofEntries]
      cases Node.ofEntry key value with
      | error error => rfl
      | ok node =>
          show entries.foldlM readEntry (insert shape key node) = _
          rw [ih]
          cases ofEntries entries <;> rfl

/-- **Reading declares the entries of an object one after the other**: no key is repeated in a
value that was settled, so none of them is replaced. -/
theorem Shape.ofEntries_eq_foldlM {entries : List (String × Json)}
    (hn : (Entries.keys entries).Nodup) :
    ofEntries entries = entries.foldlM readEntry [] := by
  rw [foldlM_readEntry]
  cases hread : ofEntries entries with
  | error error => rfl
  | ok shape =>
      have hkeys : Entries.keys shape = Entries.keys entries :=
        (Json.denotes_object_iff.mp (ofEntries_eq_ok_iff.mp hread)).1
      have hmerge : Entries.merge shape = shape := Entries.merge_of_nodup (hkeys ▸ hn)
      rw [Except.map, ← Entries.merge, hmerge]

end FieldSelection
