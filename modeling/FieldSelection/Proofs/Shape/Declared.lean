import FieldSelection.Proofs.Shape.Grammar

/-!
Shapes that are read have no repeated keys.

A JSON text may repeat a key, but its value is settled before a shape is read from it,
and reading keeps the keys of every object.

* `Json.Settled`, `Json.settled_settle`: no object in a settled value has a key twice.
* `Node.Distinct.ind`: induction on nodes without repeated keys.
* `Json.Settled.distinct_of_denotes`, `Node.distinct_ofEntry`: what settled values declare.
* `Node.distinct_of_parse`: so a shape that is read has no key twice at any level.
-/

namespace FieldSelection

/-! ### Settled values -/

namespace Json

/-- No object in a value has a key twice. -/
inductive Settled : Json → Prop where
  | null : Settled .null
  | bool (b : Bool) : Settled (.bool b)
  | number (n : Number) : Settled (.number n)
  | string (s : String) : Settled (.string s)
  | array {items : List Json} (h : ∀ item ∈ items, Settled item) : Settled (.array items)
  | object {entries : List (String × Json)} (hn : (Entries.keys entries).Nodup)
      (h : ∀ entry ∈ entries, Settled entry.2) : Settled (.object entries)

mutual

/-- Settling a value settles it. -/
lemma settled_settle : ∀ value : Json, value.settle.Settled
  | .null => .null
  | .bool b => .bool b
  | .number n => .number n
  | .string s => .string s
  | .array items => .array (settled_settleItems items)
  | .object entries => by
      refine .object (Entries.nodup_keys_merge _) fun (key, value) hm => ?_
      rcases Entries.mem_putAll hm with hold | ⟨other, hnew⟩
      · cases hold
      · exact settled_settleEntries entries (other, value) hnew

lemma settled_settleItems : ∀ items : List Json, ∀ item ∈ settleItems items, item.Settled
  | [] => fun _ h => absurd h List.not_mem_nil
  | value :: items => by
      intro item h
      rcases List.mem_cons.mp h with rfl | hrest
      · exact settled_settle value
      · exact settled_settleItems items item hrest

lemma settled_settleEntries :
    ∀ entries : List (String × Json), ∀ entry ∈ settleEntries entries, entry.2.Settled
  | [] => fun _ h => absurd h List.not_mem_nil
  | (key, value) :: entries => by
      intro entry h
      rcases List.mem_cons.mp h with rfl | hrest
      · exact settled_settle value
      · exact settled_settleEntries entries entry hrest

end

end Json

/-! ### Shapes that are read -/

/-- The shape behind a node, if there is one, has no repeated keys. -/
def Node.Distinct (node : Node) : Prop :=
  ∀ shape, node.shape? = some shape → Shape.Distinct shape

instance (node : Node) : Decidable node.Distinct :=
  node.decideBehind _

lemma Shape.distinct_iff {shape : Shape} :
    shape.Distinct ↔ (Entries.keys shape).Nodup ∧ ∀ entry ∈ shape, Node.Distinct entry.2 :=
  Shape.everywhere_iff

/-- The induction principle of nodes without repeated keys: relations inherit a property from
the entries of their shapes, and these have no key twice. -/
@[elab_as_elim]
theorem Node.Distinct.ind {P : (node : Node) → node.Distinct → Prop}
    (field : ∀ (role : Option KeyRole) (h : Node.Distinct (.field role)), P (.field role) h)
    (one : ∀ (shape : Shape) (h : Node.Distinct (.one shape)), (Entries.keys shape).Nodup →
      (∀ entry, ∀ hm : entry ∈ shape,
        P entry.2 ((Shape.distinct_iff.mp (h shape rfl)).2 entry hm)) → P (.one shape) h)
    (many : ∀ (shape : Shape) (h : Node.Distinct (.many shape)), (Entries.keys shape).Nodup →
      (∀ entry, ∀ hm : entry ∈ shape,
        P entry.2 ((Shape.distinct_iff.mp (h shape rfl)).2 entry hm)) → P (.many shape) h)
    (node : Node) (hn : node.Distinct) : P node hn := by
  induction node using Node.ind with
  | field role => exact field role hn
  | one shape ih =>
      exact one shape hn (Shape.distinct_iff.mp (hn shape rfl)).1 fun entry hm => ih entry hm _
  | many shape ih =>
      exact many shape hn (Shape.distinct_iff.mp (hn shape rfl)).1 fun entry hm => ih entry hm _

/-- A settled value denotes a node without repeated keys. -/
lemma Json.Settled.distinct_of_denotes {value : Json} (hs : value.Settled) {node : Node}
    (h : value.Denotes node) : node.Distinct := by
  have hfield : ∀ role, Node.Distinct (.field role) := by
    intro role shape hshape
    cases hshape
  induction hs generalizing node with
  | null | number n => cases h
  | bool b | string word =>
      cases h
      exact hfield _
  | array hitems ih =>
      cases h with
      | many hone =>
          -- the shape is the one behind the object
          have hdistinct : Node.Distinct (.one _) := ih _ List.mem_cons_self hone
          exact hdistinct
  | object hn hentries ih =>
      cases h with
      | one hkeys hall =>
          rintro _ ⟨⟩
          refine Shape.distinct_iff.mpr ⟨hkeys ▸ hn, ?_⟩
          clear hkeys hn hentries
          induction hall with
          | nil => exact fun _ hm => absurd hm List.not_mem_nil
          | cons hnode _ ihrest =>
              obtain ⟨hfirst, hrest⟩ := List.forall_mem_cons.mp ih
              exact List.forall_mem_cons.mpr ⟨hfirst hnode, ihrest hrest⟩

/-- A settled value declares a node without repeated keys. -/
lemma Node.distinct_ofEntry {value : Json} (hs : value.Settled) {key : String} {node : Node}
    (h : Node.ofEntry key value = .ok node) : node.Distinct :=
  hs.distinct_of_denotes ((ofEntry_eq_ok_iff value key node).mp h)

lemma Node.ofEntry_of_ofJson {value : Json} {node : Node} (h : Node.ofJson value = .ok node)
    (key : String) : Node.ofEntry key value = .ok node := by
  by_cases hroot : value.IsRoot
  · rwa [← ofJson_eq_ofEntry hroot]
  · rw [ofJson_of_not_isRoot hroot] at h
    cases h

/-- **A shape that is read from a text** has no key twice, at no level. -/
theorem Node.distinct_of_parse {text : String} {node : Node} (h : Node.parse text = .ok node) :
    node.Distinct := by
  rw [parse] at h
  split at h
  · next value hvalue =>
    rw [Json.parse, Option.map_eq_some_iff] at hvalue
    obtain ⟨raw, -, rfl⟩ := hvalue
    exact distinct_ofEntry (Json.settled_settle raw) (ofEntry_of_ofJson h "")
  · cases h

end FieldSelection
