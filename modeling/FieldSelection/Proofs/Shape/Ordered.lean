import FieldSelection.Proofs.Shape.Declared

/-!
Shapes as ordered maps.

A shape is declared step by step. An entry that is declared again keeps its place and changes what
it is, from a field to a relation or back if need be. So a shape holds the last node of every name,
in the order in which the names were declared first.

* `Declaration`: a step that declares an entry; `Shape.declared` takes one after the other, and
  `Shape.declared_eq_merge` says that it merges them.
* `Shape.fields_append_relations_perm`: fields and relations are the two parts of a shape.
* `Shape.OrderedMap`: what it means that a shape is the ordered map of some steps;
  `orderedMap_declared`: every shape that is declared is that of its steps.
-/

namespace FieldSelection

/-! ### Steps -/

/-- **A step that declares an entry** of a shape. -/
inductive Declaration where
  | field (name : String)
  | primaryKey (name : String)
  | foreignKey (name : String)
  | one (name : String) (target : Shape)
  | many (name : String) (target : Shape)
  | insert (name : String) (node : Node)

namespace Declaration

/-- The name of the entry. -/
def name : Declaration → String
  | .field name | .primaryKey name | .foreignKey name => name
  | .one name _ | .many name _ | .insert name _ => name

/-- What is declared under the name. -/
def node : Declaration → Node
  | .field _ => .field none
  | .primaryKey _ => .field (some .primary)
  | .foreignKey _ => .field (some .foreign)
  | .one _ target => .one target
  | .many _ target => .many target
  | .insert _ node => node

/-- The entry that is declared. -/
def entry (step : Declaration) : String × Node :=
  (step.name, step.node)

/-- The last node that steps declare under a name. -/
def last? (name : String) (steps : List Declaration) : Option Node :=
  ((steps.filter (·.name = name)).getLast?).map Declaration.node

lemma last?_eq (name : String) (steps : List Declaration) :
    last? name steps = Entries.last? name (steps.map entry) := by
  rw [last?, Entries.last?, List.filter_map, List.getLast?_map, Option.map_map]
  rfl

lemma keys_map_entry (steps : List Declaration) :
    Entries.keys (steps.map entry) = steps.map name := by
  rw [Entries.keys, List.map_map]
  rfl

end Declaration

namespace Shape

/-- Take one step. -/
def declare (shape : Shape) : Declaration → Shape
  | .field name => shape.field name
  | .primaryKey name => shape.primaryKey name
  | .foreignKey name => shape.foreignKey name
  | .one name target => shape.one name target
  | .many name target => shape.many name target
  | .insert name node => shape.insert name node

/-- The shape that is declared step by step. -/
def declared (steps : List Declaration) : Shape :=
  steps.foldl declare []

/-- A step puts its entry among the others. -/
lemma declare_eq_put (shape : Shape) (step : Declaration) :
    shape.declare step = Entries.put step.name step.node shape := by
  cases step <;> rfl

/-- All steps together merge their entries. -/
lemma declared_eq_merge (steps : List Declaration) :
    declared steps = Entries.merge (steps.map Declaration.entry) := by
  induction steps using List.reverseRecOn with
  | nil => rfl
  | append_singleton steps step ih =>
      rw [declared, List.foldl_append, ← declared, ih, List.map_append, List.map_singleton,
        Entries.merge_append_singleton]
      exact declare_eq_put _ step

/-- If no target has a key twice, at no level, the shape has none either. -/
lemma distinct_declared {steps : List Declaration} (h : ∀ step ∈ steps, step.node.Distinct) :
    Distinct (declared steps) := by
  induction steps using List.reverseRecOn with
  | nil => exact distinct_nil
  | append_singleton steps step ih =>
      obtain ⟨hsteps, hstep⟩ := List.forall_mem_append.mp h
      rw [declared, List.foldl_append, ← declared, List.foldl_cons, List.foldl_nil, declare_eq_put]
      exact (ih hsteps).insert step.name (hstep step List.mem_cons_self)

/-! ### Fields and relations -/

/-- A shape is put together from its fields and its relations. -/
lemma fields_append_relations_perm (shape : Shape) :
    ((shape.fields.map fun field => (field.1, Node.field field.2)) ++ shape.relations).Perm
      shape := by
  rw [map_entry_fields]
  exact List.filter_append_perm (fun entry => entry.2.isField) shape

/-! ### Ordered maps -/

/-- **A shape as the ordered map** of the steps that declare it. -/
structure OrderedMap (shape : Shape) (steps : List Declaration) : Prop where
  /-- No key stands in it twice. -/
  nodup : (Entries.keys shape).Nodup
  /-- Its keys are the names that are declared, -/
  mem_keys_iff : ∀ name, name ∈ Entries.keys shape ↔ name ∈ steps.map Declaration.name
  /-- in the order in which they are declared first. -/
  ascending : (Entries.keys shape).Pairwise fun name later =>
    (steps.map Declaration.name).idxOf name < (steps.map Declaration.name).idxOf later
  /-- There are as many entries as different names. -/
  length_eq : shape.length = (steps.map Declaration.name).toFinset.card
  /-- A name leads to the last node that is declared under it. -/
  get?_eq : ∀ name, shape.get? name = Declaration.last? name steps
  /-- Fields and relations stand in the shape in their order, -/
  fields_sublist : (shape.fields.map fun field => (field.1, Node.field field.2)).Sublist shape
  relations_sublist : shape.relations.Sublist shape
  isRelation_of_mem : ∀ entry ∈ shape.relations, entry.2.isRelation = true
  /-- and nothing else does. -/
  perm : ((shape.fields.map fun field => (field.1, Node.field field.2)) ++ shape.relations).Perm
    shape
  /-- A name is a field if it is declared as one last, -/
  marker?_eq_some_iff : ∀ name role,
    shape.marker? name = some role ↔ Declaration.last? name steps = some (.field role)
  /-- it is a relation if it is declared as one last, -/
  relation?_eq_some_iff : ∀ name node,
    shape.relation? name = some node ↔
      Declaration.last? name steps = some node ∧ node.isRelation = true
  /-- and it is never both. -/
  exclusive : ∀ name, shape.marker? name = none ∨ shape.relation? name = none

lemma get?_declared (steps : List Declaration) (name : String) :
    (declared steps).get? name = Declaration.last? name steps := by
  rw [declared_eq_merge, get?, Entries.lookup?_merge, Declaration.last?_eq]

/-- No name is a field and a relation. -/
lemma marker?_or_relation?_eq_none (shape : Shape) (name : String) :
    shape.marker? name = none ∨ shape.relation? name = none := by
  rw [marker?, relation?]
  cases shape.get? name with
  | none => exact Or.inl rfl
  | some node =>
      cases node with
      | field role => exact Or.inr rfl
      | one target | many target => exact Or.inl rfl

/-- **A shape that is declared step by step** is the ordered map of its steps. -/
theorem orderedMap_declared (steps : List Declaration) : (declared steps).OrderedMap steps where
  nodup := by
    rw [declared_eq_merge]
    exact Entries.nodup_keys_merge _
  mem_keys_iff name := by
    rw [declared_eq_merge, Entries.mem_keys_merge, Declaration.keys_map_entry]
  ascending := by
    rw [declared_eq_merge, ← Declaration.keys_map_entry]
    exact Entries.pairwise_keys_merge _
  length_eq := by
    rw [declared_eq_merge, Entries.length_merge, Declaration.keys_map_entry]
  get?_eq := get?_declared steps
  fields_sublist := by
    rw [map_entry_fields]
    exact List.filter_sublist
  relations_sublist := List.filter_sublist
  isRelation_of_mem _ hm := (List.mem_filter.mp hm).2
  perm := fields_append_relations_perm _
  marker?_eq_some_iff name role := by
    rw [marker?_eq_some_iff_get?, get?_declared]
  relation?_eq_some_iff name node := by
    rw [relation?_eq_some_iff_get?, get?_declared]
  exclusive := marker?_or_relation?_eq_none _

example : declared [.field "a", .one "b" [], .many "a" [], .primaryKey "c", .foreignKey "b"] =
    [("a", .many []), ("b", .field (some .foreign)), ("c", .field (some .primary))] :=
  rfl

end Shape

end FieldSelection
