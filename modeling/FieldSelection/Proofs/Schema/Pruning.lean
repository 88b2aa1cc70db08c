import FieldSelection.Proofs.Level.Simulation
import FieldSelection.Proofs.Shape.Distinct

/-!
A schema is an intersection with the shape.

Checking names against a shape and a model is the same as checking them against
one shape alone, from which everything was cut that the models do not know.

* `Shape.prune`: the shape cut down to a model, level by level.
* `Shape.marker?_prune`, `Shape.behind?_prune`: what a look-up finds there.
* `prune_simulation`: a place with a shape and a model, and the place with the
  pruned shape, answer alike.
* `compile_prune`: so they make the same descriptors.
-/

namespace FieldSelection

open FieldSelection.Selection

/-! ### Pruning a shape -/

/-- The key role of a field that the shape or the model marks as a key. -/
def ModelView.keyRole? (schema : ModelView) (name : String) (key : Option KeyRole) :
    Option KeyRole :=
  key.orElse fun _ => if schema.isKey name then some .primary else none

mutual

/-- A node as far as a model knows it under its name. -/
def Node.prune? (schema : ModelView) (name : String) : Node → Option Node
  | .field key =>
    if schema.isAttribute name then some (.field (schema.keyRole? name key)) else none
  | .one shape =>
    if name = "" then none
    else (schema.target? name).map fun target => .one (Shape.prune target shape)
  | .many shape =>
    if name = "" then none
    else (schema.target? name).map fun target => .many (Shape.prune target shape)

/-- A shape cut down to what a model knows: its attributes, and its associations
with the shapes behind them cut down to the models behind them. -/
def Shape.prune (schema : ModelView) : List (String × Node) → Shape
  | [] => []
  | (name, node) :: shape =>
    match node.prune? schema name with
    | some kept => (name, kept) :: Shape.prune schema shape
    | none => Shape.prune schema shape

end

lemma Shape.prune_eq_filterMap (schema : ModelView) (shape : Shape) :
    Shape.prune schema shape
      = shape.filterMap fun entry => (entry.2.prune? schema entry.1).map (entry.1, ·) := by
  induction shape with
  | nil => rfl
  | cons entry shape ih =>
      obtain ⟨name, node⟩ := entry
      rw [Shape.prune, List.filterMap_cons, ih]
      cases node.prune? schema name <;> rfl

/-! ### Look-ups -/

lemma Node.marker?_of_prune? {schema : ModelView} {name : String} (node : Node) :
    (node.prune? schema name).bind Node.marker?
      = node.marker?.bind fun key =>
          if schema.isAttribute name then some (schema.keyRole? name key) else none := by
  cases node with
  | field key => simp only [Node.prune?, Node.marker?]; split <;> rfl
  | one shape =>
      rw [Node.prune?]
      split
      · rfl
      · cases schema.target? name <;> rfl
  | many shape =>
      rw [Node.prune?]
      split
      · rfl
      · cases schema.target? name <;> rfl

lemma Node.shape?_of_prune? {schema : ModelView} {name : String} (hname : name ≠ "")
    (node : Node) :
    (node.prune? schema name).bind Node.shape?
      = (schema.target? name).bind fun target => node.shape?.map (Shape.prune target) := by
  cases node with
  | field key =>
      have hnone : (schema.target? name).bind
          (fun target => (Node.field key).shape?.map (Shape.prune target)) = none := by
        cases schema.target? name <;> rfl
      rw [hnone, Node.prune?]
      split <;> rfl
  | one shape =>
      rw [Node.prune?, if_neg hname]
      cases schema.target? name <;> rfl
  | many shape =>
      rw [Node.prune?, if_neg hname]
      cases schema.target? name <;> rfl

namespace Shape

variable {schema : ModelView} {shape : Shape}

lemma get?_prune (hn : (Entries.keys shape).Nodup) (name : String) :
    (Shape.prune schema shape).get? name = (shape.get? name).bind (Node.prune? schema name) := by
  rw [get?, get?, prune_eq_filterMap]
  exact Entries.lookup?_filterMap hn (fun name node => node.prune? schema name) name

/-- The fields of a pruned shape are those that the model knows; they are keys if
the shape or the model says so. -/
lemma marker?_prune (hn : (Entries.keys shape).Nodup) (name : String) :
    (Shape.prune schema shape).marker? name
      = (shape.marker? name).bind fun key =>
          if schema.isAttribute name then some (schema.keyRole? name key) else none := by
  rw [marker?, marker?, get?_prune hn, Option.bind_assoc, Option.bind_assoc]
  exact congrArg _ (funext Node.marker?_of_prune?)

/-- The relations of a pruned shape are those that the model knows, and what is
behind them is pruned. -/
lemma behind?_prune (hn : (Entries.keys shape).Nodup) {name : String} (hname : name ≠ "") :
    (Shape.prune schema shape).behind? name
      = (schema.target? name).bind fun target =>
          (shape.behind? name).map (Shape.prune target) := by
  rw [behind?_eq, behind?_eq, get?_prune hn, Option.bind_assoc]
  cases hg : shape.get? name with
  | none => cases schema.target? name <;> rfl
  | some node => exact Node.shape?_of_prune? hname node

end Shape

/-! ### Keys -/

/-- Whether a model knows a relation, which has to have a name. -/
def ModelView.knows (schema : ModelView) (name : String) : Bool :=
  name ≠ "" && (schema.target? name).isSome

lemma Node.isSome_prune? (schema : ModelView) (name : String) (node : Node) :
    (node.prune? schema name).isSome
      = (if node.isField then schema.isAttribute else schema.knows) name := by
  cases node with
  | field key => cases h : schema.isAttribute name <;> simp [Node.prune?, Node.isField, h]
  | one shape => by_cases h : name = "" <;> simp [Node.prune?, Node.isField, ModelView.knows, h]
  | many shape => by_cases h : name = "" <;> simp [Node.prune?, Node.isField, ModelView.knows, h]

lemma Node.isField_of_prune? {schema : ModelView} {name : String} {node kept : Node}
    (h : node.prune? schema name = some kept) : kept.isField = node.isField := by
  cases node with
  | field key =>
      rw [Node.prune?] at h
      split_ifs at h
      cases h
      rfl
  | one shape =>
      rw [Node.prune?] at h
      split_ifs at h
      obtain ⟨target, -, rfl⟩ := Option.map_eq_some_iff.mp h
      rfl
  | many shape =>
      rw [Node.prune?] at h
      split_ifs at h
      obtain ⟨target, -, rfl⟩ := Option.map_eq_some_iff.mp h
      rfl

namespace Shape

/-- Of the entries of one kind, pruning keeps those that the model knows. -/
lemma keys_prune (schema : ModelView) (kind : Bool) (shape : Shape) :
    Entries.keys ((Shape.prune schema shape).filter fun entry => entry.2.isField == kind)
      = (Entries.keys (shape.filter fun entry => entry.2.isField == kind)).filter
          (if kind then schema.isAttribute else schema.knows) := by
  induction shape with
  | nil => rfl
  | cons entry shape ih =>
      obtain ⟨name, node⟩ := entry
      have hsome := Node.isSome_prune? schema name node
      by_cases hk : node.isField = kind
      · subst hk
        have hold : Entries.keys (((name, node) :: shape).filter fun entry =>
              entry.2.isField == node.isField)
            = name :: Entries.keys (shape.filter fun entry => entry.2.isField == node.isField) := by
          simp [Entries.keys]
        rw [hold, List.filter_cons, ← hsome, ← ih, Shape.prune]
        cases hp : node.prune? schema name with
        | none => simp
        | some kept => simp [Entries.keys, Node.isField_of_prune? hp]
      · have hold : ((name, node) :: shape).filter (fun entry => entry.2.isField == kind)
            = shape.filter fun entry => entry.2.isField == kind := by
          simp [hk]
        rw [hold, ← ih, Shape.prune]
        cases hp : node.prune? schema name with
        | none => rfl
        | some kept => simp [Node.isField_of_prune? hp, hk]

lemma keys_fields_prune (schema : ModelView) (shape : Shape) :
    Entries.keys (Shape.prune schema shape).fields
      = (Entries.keys shape.fields).filter schema.isAttribute := by
  simpa [keys_fields] using keys_prune schema true shape

lemma keys_relations_prune (schema : ModelView) (shape : Shape) :
    Entries.keys (Shape.prune schema shape).relations
      = (Entries.keys shape.relations).filter schema.knows := by
  simpa [relations, Node.isRelation] using keys_prune schema false shape

end Shape

/-! ### Pruned places -/

/-- A place with a shape and a model, and the same place with the shape pruned and
no model. -/
def Place.Prunes (place pruned : Place) : Prop :=
  ∃ shape schema path, Shape.Distinct shape ∧ place = ⟨some shape, some schema, path⟩ ∧
    pruned = ⟨some (Shape.prune schema shape), none, path⟩

section Answers

variable {shape : Shape} (schema : ModelView) (path : String)

lemma hasField_prune (hn : (Entries.keys shape).Nodup) (name : String) :
    Place.hasField ⟨some shape, some schema, path⟩ name
      = Place.hasField ⟨some (Shape.prune schema shape), none, path⟩ name := by
  simp only [Place.hasField, Place.shapeHasField, Place.schemaHasField, Option.all_some,
    Option.all_none, Bool.and_true, Shape.marker?_prune hn, Bool.and_assoc]
  cases shape.marker? name <;> cases schema.isAttribute name <;> simp

lemma fields?_prune :
    Place.fields? ⟨some shape, some schema, path⟩
      = Place.fields? ⟨some (Shape.prune schema shape), none, path⟩ := by
  simp only [Place.fields?, Shape.keys_fields_prune, List.filter_filter]
  refine congrArg some (List.filter_congr fun name _ => ?_)
  simp [Place.schemaHasField]

lemma isKey_prune (hn : (Entries.keys shape).Nodup) {names : List String} {name : String}
    (hnames : Place.fields? ⟨some shape, some schema, path⟩ = some names) (hmem : name ∈ names) :
    Place.isKey ⟨some shape, some schema, path⟩ name
      = Place.isKey ⟨some (Shape.prune schema shape), none, path⟩ name := by
  rw [Place.fields?, Option.some.injEq] at hnames
  rw [← hnames, List.mem_filter] at hmem
  obtain ⟨key, hkey⟩ := Shape.mem_keys_fields.mp hmem.1
  have hattribute : schema.isAttribute name = true := by
    simpa [Place.schemaHasField] using hmem.2
  have hmarker := (Shape.marker?_eq_some_iff hn).mpr hkey
  simp only [Place.isKey, Option.any_some, Option.any_none, Bool.or_false,
    Shape.marker?_prune hn, hmarker, Option.bind_some, hattribute, if_true,
    ModelView.keyRole?]
  cases key <;> cases schema.isKey name <;> rfl

lemma enter?_prune (hd : shape.Distinct) (name : String) :
    Option.Rel Place.Prunes (Place.enter? ⟨some shape, some schema, path⟩ name)
      (Place.enter? ⟨some (Shape.prune schema shape), none, path⟩ name) := by
  by_cases hname : name = ""
  · simp only [Place.enter?, hname, if_true]
    exact .none
  · have hpruned : (Shape.prune schema shape).behind? name
        = (schema.target? name).bind fun target =>
            (shape.behind? name).map (Shape.prune target) :=
      Shape.behind?_prune hd.here hname
    have hsub : ∀ sub, shape.behind? name = some sub → Shape.Distinct sub := by
      intro sub hs
      obtain ⟨node, hr, hs⟩ := Option.bind_eq_some_iff.mp hs
      exact hd.of_relation? hr hs
    simp only [Shape.behind?] at hpruned hsub
    simp only [Place.enter?, hname, if_false, Place.enterShape?, Place.enterSchema?, hpruned]
    cases ht : schema.target? name with
    | none =>
        cases hb : (shape.relation? name).bind Node.shape? <;> exact .none
    | some target =>
        cases hb : (shape.relation? name).bind Node.shape? with
        | none => exact .none
        | some sub => exact .some ⟨sub, target, _, hsub sub hb, rfl, rfl⟩

end Answers

/-- A place and its pruned place answer alike, and lead to such places again. -/
lemma prune_simulation (query : Query) : Place.Simulation query query Place.Prunes where
  hasField := by
    rintro _ _ ⟨shape, schema, path, hd, rfl, rfl⟩ name
    exact hasField_prune schema path hd.here name
  noShape := by
    rintro _ _ ⟨shape, schema, path, hd, rfl, rfl⟩
    rfl
  fields? := by
    rintro _ _ ⟨shape, schema, path, hd, rfl, rfl⟩
    exact fields?_prune schema path
  isKey := by
    rintro _ _ ⟨shape, schema, path, hd, rfl, rfl⟩ names name hnames hmem
    exact isKey_prune schema path hd.here hnames hmem
  promoted := by
    rintro _ _ ⟨shape, schema, path, hd, rfl, rfl⟩ attributes excluded
    rfl
  relations := by
    rintro _ _ ⟨shape, schema, path, hd, rfl, rfl⟩
    have hisSome : ∀ name, (Place.enter? ⟨some shape, some schema, path⟩ name).isSome
        = (Place.enter? ⟨some (Shape.prune schema shape), none, path⟩ name).isSome := by
      intro name
      exact isSome_eq_of_rel (enter?_prune schema path hd name)
    simp only [Place.relations, Shape.keys_relations_prune, List.filter_filter, ← hisSome]
    refine List.filter_congr fun name _ => ?_
    cases hk : schema.knows name with
    | true => rw [Bool.and_true]
    | false =>
        have hnone : Place.enter? ⟨some shape, some schema, path⟩ name = none := by
          by_cases hname : name = ""
          · simp [Place.enter?, hname]
          · have ht : schema.target? name = none := by
              simpa [ModelView.knows, hname] using hk
            simp only [Place.enter?, hname, if_false, Place.enterSchema?, ht, Option.map_none]
            cases Place.enterShape? ⟨some shape, some schema, path⟩ name <;> rfl
        rw [hnone]
        rfl
  enter? := by
    rintro _ _ ⟨shape, schema, path, hd, rfl, rfl⟩ name
    exact enter?_prune schema path hd name

/-- **A schema acts as an intersection with the shape**: compiling against a shape
and a model is compiling against the pruned shape alone. -/
theorem compile_prune {shape : Shape} (hd : shape.Distinct) (schema : ModelView)
    (options : CompileOptions) (query : Query) :
    Compiler.compile ⟨some shape, some schema, options⟩ query
      = Compiler.compile ⟨some (Shape.prune schema shape), none, options⟩ query := by
  have hroot : Place.Prunes (Compiler.root ⟨some shape, some schema, options⟩)
      (Compiler.root ⟨some (Shape.prune schema shape), none, options⟩) :=
    ⟨shape, schema, "", hd, rfl, rfl⟩
  rw [Compiler.compile_eq, Compiler.compile_eq,
    (prune_simulation query).compiled_eq options options rfl options.maxDepth hroot]
  rfl

/-- A model of books in a registry that has a cycle and an association that leads
nowhere. -/
def bookView : ModelView where
  registry := ⟨[⟨"book", [⟨"id", some .primary⟩, ⟨"title", none⟩],
      [⟨"author", "author", .one⟩, ⟨"shop", "shop", .one⟩]⟩,
    ⟨"author", [⟨"id", some .primary⟩, ⟨"name", none⟩], [⟨"books", "book", .many⟩]⟩]⟩
  model := ⟨"book", [⟨"id", some .primary⟩, ⟨"title", none⟩],
    [⟨"author", "author", .one⟩, ⟨"shop", "shop", .one⟩]⟩

/-- A shape of books that knows more fields and relations than the model, and
fewer. -/
def bookShape : Shape :=
  [("title", .field none), ("id", .field none), ("summary", .field none),
    ("author", .one [("name", .field none), ("mail", .field none),
      ("books", .many [("title", .field none)])]),
    ("shop", .one [("name", .field none)]), ("reviews", .many [("text", .field none)])]

/-- Books in keys mode: everything but a key, which comes back, and a field of the
author, who has a relation that everything is asked of. -/
theorem compile_prune_book :
    bookShape.Distinct ∧
      Compiler.compile ⟨some bookShape, some bookView, { includeKeys := true }⟩
          { fields := some "all,-id,author(-name,books(all)),reviews(text)" }
        = Compiler.compile ⟨some (Shape.prune bookView bookShape), none, { includeKeys := true }⟩
          { fields := some "all,-id,author(-name,books(all)),reviews(text)" } :=
  ⟨by decide, compile_prune (by decide) bookView { includeKeys := true } _⟩

end FieldSelection
