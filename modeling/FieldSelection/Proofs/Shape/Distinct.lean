import Mathlib.Data.List.Nodup
import Mathlib.Tactic.Common
import FieldSelection.Shape.Basic

/-!
Shapes without repeated keys.

Shapes are declared entry by entry, and declaring an entry under a key that is
there replaces it. So no level of a shape has a key twice, and a look-up is the
same as membership.

* `Node.ind`: induction on nodes, with the entries of a shape as the children.
* `Shape.Everywhere`: a property of all levels of a shape.
* `Shape.Distinct`: no level has a key twice; `Distinct.insert` keeps it.
* `Shape.marker?_eq_some_iff`, `Shape.relation?_eq_some_iff`: look-ups in a level
  without repeated keys.
* `Shape.map_entry_fields`: the fields of a level, as entries.
-/

namespace FieldSelection

/-! ### Entries without repeated keys -/

namespace Entries

variable {α β : Type}

lemma mem_keys {key : String} {entries : List (String × α)} :
    key ∈ keys entries ↔ ∃ value, (key, value) ∈ entries := by
  simp [keys]

lemma mem_of_lookup? {key : String} {value : α} {entries : List (String × α)}
    (h : lookup? key entries = some value) : (key, value) ∈ entries := by
  induction entries with
  | nil => cases h
  | cons entry entries ih =>
      obtain ⟨k, old⟩ := entry
      rw [lookup?] at h
      split at h
      · next hk =>
        cases h
        simp [hk]
      · exact List.mem_cons_of_mem _ (ih h)

lemma lookup?_eq_none_iff {key : String} {entries : List (String × α)} :
    lookup? key entries = none ↔ key ∉ keys entries := by
  induction entries with
  | nil => simp [keys]
  | cons entry entries ih =>
      have hcons : key ∈ keys (entry :: entries) ↔ key = entry.1 ∨ key ∈ keys entries := by
        simp [keys]
      rw [lookup?, hcons]
      split
      · next hkey => simp [hkey]
      · next hkey => simp [ih, Ne.symm hkey]

lemma isSome_lookup?_iff {key : String} {entries : List (String × α)} :
    (lookup? key entries).isSome = true ↔ key ∈ keys entries := by
  rw [Option.isSome_iff_ne_none, Ne, lookup?_eq_none_iff, not_not]

/-- Without repeated keys a look-up finds every entry. -/
lemma lookup?_of_mem {key : String} {value : α} {entries : List (String × α)}
    (hn : (keys entries).Nodup) (h : (key, value) ∈ entries) :
    lookup? key entries = some value := by
  induction entries with
  | nil => cases h
  | cons entry entries ih =>
      obtain ⟨k, old⟩ := entry
      obtain ⟨hk, hrest⟩ := List.nodup_cons.mp hn
      rcases List.mem_cons.mp h with heq | hmem
      · cases heq
        rw [lookup?, if_pos rfl]
      · have hne : k ≠ key := by
          rintro rfl
          exact hk (mem_keys.mpr ⟨value, hmem⟩)
        rw [lookup?, if_neg hne, ih hrest hmem]

lemma lookup?_eq_some_iff {key : String} {value : α} {entries : List (String × α)}
    (hn : (keys entries).Nodup) : lookup? key entries = some value ↔ (key, value) ∈ entries :=
  ⟨mem_of_lookup?, lookup?_of_mem hn⟩

/-- Without repeated keys the order of the entries does not matter. -/
lemma lookup?_eq_of_perm {entries others : List (String × α)} (h : entries.Perm others)
    (hn : (keys entries).Nodup) (key : String) : lookup? key entries = lookup? key others := by
  have hn' : (keys others).Nodup := (h.map Prod.fst).nodup hn
  ext value
  rw [lookup?_eq_some_iff hn, lookup?_eq_some_iff hn', h.mem_iff]

/-- Changing or dropping the values of entries changes or drops what a look-up
finds. -/
lemma lookup?_filterMap {entries : List (String × α)} (hn : (keys entries).Nodup)
    (f : String → α → Option β) (key : String) :
    lookup? key (entries.filterMap fun entry => (f entry.1 entry.2).map (entry.1, ·))
      = (lookup? key entries).bind (f key) := by
  induction entries with
  | nil => rfl
  | cons entry entries ih =>
      obtain ⟨k, old⟩ := entry
      obtain ⟨hk, hrest⟩ := List.nodup_cons.mp hn
      rw [List.filterMap_cons, lookup?]
      by_cases hkey : k = key
      · subst hkey
        rw [if_pos rfl]
        have hgone : lookup? k entries = none := by
          cases h : lookup? k entries with
          | none => rfl
          | some value => exact absurd (mem_keys.mpr ⟨value, mem_of_lookup? h⟩) hk
        cases hf : f k old with
        | none => simpa [hf, hgone] using ih hrest
        | some value => simp [hf, lookup?]
      · rw [if_neg hkey]
        cases hf : f k old with
        | none => simpa [hf] using ih hrest
        | some value => simpa [hf, lookup?, hkey] using ih hrest

/-- Dropping entries and changing values keeps the order of the keys. -/
lemma keys_filterMap_sublist (entries : List (String × α)) (f : String × α → Option β) :
    (keys (entries.filterMap fun entry => (f entry).map (entry.1, ·))).Sublist
      (keys entries) := by
  induction entries with
  | nil => exact .refl _
  | cons entry entries ih =>
      rw [List.filterMap_cons]
      cases f entry with
      | none => exact ih.cons entry.1
      | some value => exact ih.cons_cons entry.1

/-- Entries whose keys stand among others in order are what look-ups along those find. -/
lemma filterMap_lookup?_eq {entries : List (String × β)} {others : List (String × α)}
    (hn : (keys others).Nodup) (h : (keys entries).Sublist (keys others)) :
    (others.filterMap fun entry => (lookup? entry.1 entries).map (entry.1, ·)) = entries := by
  induction others generalizing entries with
  | nil =>
      have hnil : entries = [] := List.map_eq_nil_iff.mp (List.sublist_nil.mp h)
      rw [hnil, List.filterMap_nil]
  | cons other others ih =>
      obtain ⟨hother, hothers⟩ := List.nodup_cons.mp hn
      rw [List.filterMap_cons]
      rcases List.sublist_cons_iff.mp h with hrest | ⟨rest, hrest, hsub⟩
      · have hnone : lookup? other.1 entries = none :=
          lookup?_eq_none_iff.mpr fun hm => hother (hrest.subset hm)
        rw [hnone, Option.map_none]
        exact ih hothers hrest
      · obtain ⟨⟨key, value⟩, entries, rfl, rfl, rfl⟩ := List.map_eq_cons_iff.mp hrest
        have hfound : lookup? other.1 ((other.1, value) :: entries) = some value := if_pos rfl
        have hskip : ∀ entry ∈ others,
            (lookup? entry.1 ((other.1, value) :: entries)).map (entry.1, ·)
              = (lookup? entry.1 entries).map (entry.1, ·) := by
          intro entry hm
          have hne : other.1 ≠ entry.1 := by
            intro heq
            have hmem : entry.1 ∈ keys others := List.mem_map_of_mem hm
            exact hother (by rwa [← heq] at hmem)
          rw [lookup?, if_neg hne]
        rw [hfound, Option.map_some, List.filterMap_congr hskip, ih hothers hsub]

lemma mem_put {key other : String} {value found : α} {entries : List (String × α)}
    (h : (other, found) ∈ put key value entries) :
    found = value ∨ (other, found) ∈ entries := by
  induction entries with
  | nil =>
      rw [put, List.mem_singleton] at h
      cases h
      exact Or.inl rfl
  | cons entry entries ih =>
      obtain ⟨k, old⟩ := entry
      rw [put] at h
      split at h <;> rcases List.mem_cons.mp h with heq | hmem
      · cases heq
        exact Or.inl rfl
      · exact Or.inr (List.mem_cons_of_mem _ hmem)
      · cases heq
        exact Or.inr List.mem_cons_self
      · exact (ih hmem).imp_right (List.mem_cons_of_mem _)

lemma nodup_keys_put {key : String} {value : α} {entries : List (String × α)}
    (h : (keys entries).Nodup) : (keys (put key value entries)).Nodup := by
  rw [keys_put]
  split
  · exact h
  · next hn => exact h.append (List.nodup_singleton _) (by simpa using hn)

end Entries

/-! ### Levels of a shape -/

namespace Shape

/-- A property of all levels of a shape: it holds of the shape and everywhere in
the shapes behind its relations. -/
inductive Everywhere (P : Shape → Prop) : Shape → Prop where
  | intro {shape : Shape} (here : P shape)
      (behind : ∀ entry ∈ shape, ∀ sub, Node.shape? entry.2 = some sub → Everywhere P sub) :
      Everywhere P shape

lemma everywhere_iff {P : Shape → Prop} {shape : Shape} :
    Everywhere P shape ↔
      P shape ∧ ∀ entry ∈ shape, ∀ sub, Node.shape? entry.2 = some sub → Everywhere P sub :=
  ⟨fun ⟨here, behind⟩ => ⟨here, behind⟩, fun ⟨here, behind⟩ => ⟨here, behind⟩⟩

lemma Everywhere.here {P : Shape → Prop} {shape : Shape} (h : Everywhere P shape) : P shape :=
  (everywhere_iff.mp h).1

lemma Everywhere.behind {P : Shape → Prop} {shape sub : Shape} {name : String} {node : Node}
    (h : Everywhere P shape) (hm : (name, node) ∈ shape) (hs : node.shape? = some sub) :
    Everywhere P sub :=
  (everywhere_iff.mp h).2 (name, node) hm sub hs

end Shape

/-- The induction principle of nodes: a property holds of every node once relations inherit
it from the entries of their shapes. -/
@[elab_as_elim]
theorem Node.ind {P : Node → Prop} (field : ∀ key, P (.field key))
    (one : ∀ shape : Shape, (∀ entry ∈ shape, P entry.2) → P (.one shape))
    (many : ∀ shape : Shape, (∀ entry ∈ shape, P entry.2) → P (.many shape))
    (node : Node) : P node :=
  Node.rec (motive_1 := P) (motive_2 := fun shape => ∀ entry ∈ shape, P entry.2)
    (motive_3 := fun entry => P entry.2) field one many
    (fun _ h => absurd h List.not_mem_nil)
    (fun _ _ hhead htail => List.forall_mem_cons.mpr ⟨hhead, htail⟩)
    (fun _ _ h => h)
    node

mutual

/-- Whether a property holds of all levels behind a node can be decided. -/
def Node.decideBehind (P : Shape → Prop) [DecidablePred P] :
    (node : Node) → Decidable (∀ sub, node.shape? = some sub → Shape.Everywhere P sub)
  | .field _ => isTrue fun _ h => nomatch h
  | .one shape | .many shape =>
    have := Shape.decideBehind P shape
    decidable_of_iff
      (P shape ∧ ∀ entry ∈ shape, ∀ sub, Node.shape? entry.2 = some sub →
        Shape.Everywhere P sub)
      (Shape.everywhere_iff.symm.trans (by simp [Node.shape?]))

/-- Whether a property holds of all levels behind the entries of a shape can be
decided. -/
def Shape.decideBehind (P : Shape → Prop) [DecidablePred P] :
    (shape : List (String × Node)) →
      Decidable (∀ entry ∈ shape, ∀ sub, Node.shape? entry.2 = some sub →
        Shape.Everywhere P sub)
  | [] => isTrue fun _ h => absurd h List.not_mem_nil
  | (_, node) :: shape =>
    have := Node.decideBehind P node
    have := Shape.decideBehind P shape
    decidable_of_iff
      ((∀ sub, node.shape? = some sub → Shape.Everywhere P sub) ∧
        ∀ entry ∈ shape, ∀ sub, Node.shape? entry.2 = some sub → Shape.Everywhere P sub)
      (by simp)

end

namespace Shape

instance (P : Shape → Prop) [DecidablePred P] (shape : Shape) : Decidable (Everywhere P shape) :=
  have := decideBehind P shape
  decidable_of_iff _ everywhere_iff.symm

/-- No level of the shape has a key twice. -/
def Distinct (shape : Shape) : Prop :=
  shape.Everywhere fun level => (Entries.keys level).Nodup

instance (shape : Shape) : Decidable shape.Distinct :=
  inferInstanceAs (Decidable (shape.Everywhere _))

lemma distinct_nil : Distinct [] := by
  decide

/-- Declaring an entry does not bring a key in twice. -/
lemma Distinct.insert {shape : Shape} (h : shape.Distinct) (name : String) {node : Node}
    (hnode : ∀ sub, node.shape? = some sub → Distinct sub) :
    (shape.insert name node).Distinct := by
  refine .intro (Entries.nodup_keys_put h.here) fun entry hm sub hs => ?_
  rcases Entries.mem_put hm with rfl | hmem
  · exact hnode sub hs
  · exact h.behind hmem hs

/-! ### Look-ups -/

variable {shape : Shape}

/-- The marker under a name is the one of the field there. -/
lemma marker?_eq_some_iff_get? {name : String} {key : Option KeyRole} :
    shape.marker? name = some key ↔ shape.get? name = some (.field key) := by
  rw [marker?]
  cases shape.get? name with
  | none => simp
  | some node => cases node <;> simp [Node.marker?]

lemma marker?_eq_some_iff (hn : (Entries.keys shape).Nodup) {name : String}
    {key : Option KeyRole} :
    shape.marker? name = some key ↔ (name, .field key) ∈ shape := by
  rw [marker?_eq_some_iff_get?, get?, Entries.lookup?_eq_some_iff hn]

/-- The relation under a name is the node there, if it is one. -/
lemma relation?_eq_some_iff_get? {name : String} {node : Node} :
    shape.relation? name = some node ↔ shape.get? name = some node ∧ node.isRelation = true := by
  rw [relation?, Option.filter_eq_some_iff]

lemma relation?_eq_some_iff (hn : (Entries.keys shape).Nodup) {name : String} {node : Node} :
    shape.relation? name = some node ↔ (name, node) ∈ shape ∧ node.isRelation = true := by
  rw [relation?_eq_some_iff_get?, get?, Entries.lookup?_eq_some_iff hn]

/-- The shape behind a relation is one of those behind the shape. -/
lemma Everywhere.of_relation? {P : Shape → Prop} {sub : Shape} {name : String} {node : Node}
    (h : Everywhere P shape) (hr : shape.relation? name = some node)
    (hs : node.shape? = some sub) : Everywhere P sub := by
  exact h.behind (Entries.mem_of_lookup? (relation?_eq_some_iff_get?.mp hr).1) hs

/-- The shape behind a relation. -/
def behind? (shape : Shape) (name : String) : Option Shape :=
  (shape.relation? name).bind Node.shape?

lemma behind?_eq (shape : Shape) (name : String) :
    shape.behind? name = (shape.get? name).bind Node.shape? := by
  rw [behind?, relation?]
  cases shape.get? name with
  | none => rfl
  | some node => cases node <;> rfl

/-- What is behind a relation is behind an entry. -/
lemma exists_of_behind? {sub : Shape} {name : String} (h : shape.behind? name = some sub) :
    ∃ node, (name, node) ∈ shape ∧ node.shape? = some sub := by
  rw [behind?_eq, get?] at h
  obtain ⟨node, hnode, hsub⟩ := Option.bind_eq_some_iff.mp h
  exact ⟨node, Entries.mem_of_lookup? hnode, hsub⟩

/-- The shape behind an entry is found under its key. -/
lemma behind?_of_mem {sub : Shape} {name : String} {node : Node}
    (hn : (Entries.keys shape).Nodup) (hm : (name, node) ∈ shape)
    (hs : node.shape? = some sub) : shape.behind? name = some sub := by
  rw [behind?_eq, get?, Entries.lookup?_of_mem hn hm, Option.bind_some, hs]

lemma mem_keys_fields {name : String} :
    name ∈ Entries.keys shape.fields ↔ ∃ key, (name, .field key) ∈ shape := by
  simp only [Entries.mem_keys, fields, List.mem_filterMap]
  constructor
  · rintro ⟨key, ⟨other, node⟩, hm, h⟩
    cases node <;> simp [Node.marker?] at h
    obtain ⟨rfl, rfl⟩ := h
    exact ⟨_, hm⟩
  · rintro ⟨key, hm⟩
    exact ⟨key, _, hm, rfl⟩

lemma mem_keys_relations {name : String} :
    name ∈ Entries.keys shape.relations ↔
      ∃ node, (name, node) ∈ shape ∧ node.isRelation = true := by
  simp [Entries.mem_keys, relations]

lemma nodup_keys_relations (hn : (Entries.keys shape).Nodup) :
    (Entries.keys shape.relations).Nodup :=
  hn.sublist (List.filter_sublist.map _)

/-- The fields of a shape are its entries that are fields. -/
lemma map_entry_fields (shape : Shape) :
    (shape.fields.map fun field => (field.1, Node.field field.2))
      = shape.filter fun entry => entry.2.isField := by
  induction shape with
  | nil => rfl
  | cons entry shape ih =>
      obtain ⟨name, node⟩ := entry
      cases node <;> simpa [fields, Node.marker?, Node.isField] using ih

lemma keys_fields (shape : Shape) :
    Entries.keys shape.fields = Entries.keys (shape.filter fun entry => entry.2.isField) := by
  rw [← map_entry_fields, Entries.keys, Entries.keys, List.map_map]
  rfl

end Shape

end FieldSelection
