import Mathlib.Data.List.Sigma
import FieldSelection.Proofs.Projection.Positions
import FieldSelection.Proofs.Text.Separated

/-!
Dotted paths.

The ways to the kept fields of a value are all different (`Node.nodup_texts_routes`). The
paths that they are written as need not be: a dot in a key looks like a step. Where no key
has a dot, a path is written for one way only.

* `Leaf.texts`: the segments of the path of a leaf.
* `joinDots`, `joinSteps_eq_joinDots`: the path of a way, its segments joined by dots.
* `Leaf.flatEntry`: a leaf as an entry of a flat object.
* `Node.AllKeys`: a property of all keys behind a node; `Node.forall_texts_routes` has it for
  all segments.
* `Shape.nodup_keys_map_flatEntry`: without dots in the keys all paths are different.
-/

namespace FieldSelection

/-! ### Different ways -/

/-- The segments of the way to a leaf. -/
def Leaf.texts (leaf : Leaf) : List String :=
  leaf.1.map Step.text

lemma Leaf.map_texts_behind (step : Step) (leaves : List Leaf) :
    (leaves.map (Leaf.behind step)).map Leaf.texts
      = (leaves.map Leaf.texts).map (step.text :: ·) := by
  rw [List.map_map, List.map_map]
  rfl

/-- Leaves behind steps with different texts are different if they are different behind each
step. -/
lemma nodup_texts_flatMap {α : Type} {places : List α} {step : α → Step}
    {leaves : α → List Leaf} (hsteps : (places.map fun place => (step place).text).Nodup)
    (hleaves : ∀ place ∈ places, ((leaves place).map Leaf.texts).Nodup) :
    ((places.flatMap fun place =>
      (leaves place).map (Leaf.behind (step place))).map Leaf.texts).Nodup := by
  rw [List.map_flatMap, List.nodup_flatMap]
  constructor
  · intro place hm
    rw [Leaf.map_texts_behind]
    exact (hleaves place hm).map List.cons_injective
  · refine (List.pairwise_map.mp hsteps).imp fun {first second} hne texts hfirst hsecond => ?_
    simp only [Leaf.map_texts_behind] at hfirst hsecond
    obtain ⟨rest, -, rfl⟩ := List.mem_map.mp hfirst
    obtain ⟨rest', -, heq⟩ := List.mem_map.mp hsecond
    exact hne (List.cons.inj heq).1.symm

/-- Indices are told apart by their digits. -/
lemma toString_index_injective : Function.Injective (toString : Nat → String) := by
  intro first second h
  rw [Nat.toString_eq_ofList_toDigits, Nat.toString_eq_ofList_toDigits, String.ofList_inj] at h
  calc first = Nat.ofDigitChars 10 (Nat.toDigits 10 first) 0 :=
        Nat.ofDigitChars_ten_toDigits.symm
    _ = Nat.ofDigitChars 10 (Nat.toDigits 10 second) 0 := by rw [h]
    _ = second := Nat.ofDigitChars_ten_toDigits

/-- An index has no dot. -/
lemma dot_notMem_index (place : Nat) : '.' ∉ (toString place).toList := by
  rw [Nat.toString_eq_ofList_toDigits, String.toList_ofList]
  intro hm
  have hdigit : Char.isDigit '.' = true := Nat.isDigit_of_mem_toDigits (by omega) (by omega) hm
  exact absurd hdigit (by decide)

/-- Whether the ways to the kept fields behind a node are all different. -/
def Node.DistinctWays (node : Node) : Prop :=
  ∀ (descriptor : Descriptor) (data : Json),
    ((node.routes data descriptor).map Leaf.texts).Nodup

/-- One object. -/
lemma Shape.nodup_texts_routesOf {shape : Shape} (hn : (Entries.keys shape).Nodup)
    (hnodes : ∀ entry ∈ shape, entry.2.DistinctWays) (descriptor : Descriptor) (data : Json) :
    ((shape.routesOf descriptor data).map Leaf.texts).Nodup := by
  rw [routesOf]
  cases data.entries? with
  | none => exact List.nodup_nil
  | some entries =>
      show ((routes entries descriptor shape).map Leaf.texts).Nodup
      rw [routes_eq_flatMap]
      refine nodup_texts_flatMap hn fun entry hm => ?_
      rcases entry.2.isField_or_isRelation with hfield | hrelation
      · -- a field is one leaf at most
        rw [Node.routesUnder_of_isField hfield]
        cases entry.2.shown? entries descriptor entry.1 <;> simp
      · rw [Node.routesUnder_of_isRelation hrelation]
        cases descriptor.child? entry.1 with
        | none => exact List.nodup_nil
        | some child =>
            cases Entries.lookup? entry.1 entries with
            | none => exact List.nodup_nil
            | some value => exact hnodes entry hm child value

/-- **The ways to the kept fields** behind a node are all different. -/
lemma Node.nodup_texts_routes (node : Node) (hn : node.Distinct) : node.DistinctWays := by
  induction node, hn using Node.Distinct.ind with
  | field role h => exact fun descriptor data => List.nodup_nil
  | one shape h hkeys ih => exact Shape.nodup_texts_routesOf hkeys ih
  | many shape h hkeys ih =>
      intro descriptor data
      cases data with
      | array items =>
          have hindices : (items.zipIdx.map fun item => toString item.2).Nodup := by
            have hmap := (List.nodup_zipIdx_map_snd items).map toString_index_injective
            rwa [List.map_map] at hmap
          rw [routes_many]
          exact nodup_texts_flatMap hindices fun item _ =>
            Shape.nodup_texts_routesOf hkeys ih descriptor item.1
      | _ => exact List.nodup_nil

/-! ### Segments -/

/-- Whether all keys behind a node have a property. -/
def Node.AllKeys (P : String → Prop) (node : Node) : Prop :=
  ∀ shape, node.shape? = some shape →
    shape.Everywhere fun level => ∀ key ∈ Entries.keys level, P key

instance (P : String → Prop) [DecidablePred P] (node : Node) : Decidable (node.AllKeys P) :=
  node.decideBehind _

section Keys

variable {P Q : String → Prop} {shape : Shape} {descriptor : Descriptor} {data : Json}
  {leaf : Leaf}

lemma Shape.allKeys_iff :
    (shape.Everywhere fun level => ∀ key ∈ Entries.keys level, P key) ↔
      (∀ entry ∈ shape, P entry.1) ∧ ∀ entry ∈ shape, entry.2.AllKeys P := by
  rw [everywhere_iff]
  exact and_congr_left fun _ => List.forall_mem_map

lemma Node.AllKeys.imp {node : Node} (himp : ∀ key, P key → Q key) :
    node.AllKeys P → node.AllKeys Q := by
  have hlevels : ∀ shape : Shape,
      (shape.Everywhere fun level => ∀ key ∈ Entries.keys level, P key) →
        shape.Everywhere fun level => ∀ key ∈ Entries.keys level, Q key := by
    intro shape h
    induction h with
    | intro here behind ih => exact .intro (fun key hm => himp key (here key hm)) ih
  exact fun h shape hshape => hlevels shape (h shape hshape)

/-- A kept field of an object stands under a key of the shape: it is the field itself, or it
is behind a relation that is followed. -/
lemma Shape.exists_of_mem_routesOf (h : leaf ∈ shape.routesOf descriptor data) :
    ∃ entry ∈ shape, ∃ rest : Leaf, leaf = rest.behind (.key entry.1) ∧
      (rest.1 = [] ∨ ∃ child value, descriptor.child? entry.1 = some child ∧
        rest ∈ entry.2.routes value child) := by
  rw [routesOf] at h
  cases hentries : data.entries? with
  | none =>
      rw [hentries] at h
      cases h
  | some entries =>
      rw [hentries] at h
      change leaf ∈ routes entries descriptor shape at h
      rw [routes_eq_flatMap] at h
      obtain ⟨entry, hm, hleaf⟩ := List.mem_flatMap.mp h
      obtain ⟨rest, hrest, rfl⟩ := List.mem_map.mp hleaf
      refine ⟨entry, hm, rest, rfl, ?_⟩
      rcases entry.2.isField_or_isRelation with hfield | hrelation
      · rw [Node.routesUnder_of_isField hfield] at hrest
        obtain ⟨value, -, rfl⟩ := List.mem_map.mp hrest
        exact Or.inl rfl
      · rw [Node.routesUnder_of_isRelation hrelation] at hrest
        cases hchild : descriptor.child? entry.1 with
        | none => simp [hchild] at hrest
        | some child =>
            cases hvalue : Entries.lookup? entry.1 entries with
            | none => simp [hchild, hvalue] at hrest
            | some value =>
                refine Or.inr ⟨child, value, rfl, ?_⟩
                simpa [hchild, hvalue] using hrest

/-- **All segments** of the ways behind a node have a property that its keys and all indices
have. -/
lemma Node.forall_texts_routes (hindex : ∀ place : Nat, P (toString place)) (node : Node) :
    node.AllKeys P → ∀ (descriptor : Descriptor) (data : Json),
      ∀ leaf ∈ node.routes data descriptor, ∀ text ∈ leaf.texts, P text := by
  have hone : ∀ shape : Shape, (∀ entry ∈ shape, P entry.1) →
      (∀ entry ∈ shape, ∀ (descriptor : Descriptor) (data : Json),
        ∀ leaf ∈ entry.2.routes data descriptor, ∀ text ∈ leaf.texts, P text) →
      ∀ (descriptor : Descriptor) (data : Json),
        ∀ leaf ∈ shape.routesOf descriptor data, ∀ text ∈ leaf.texts, P text := by
    intro shape hkeys hnodes descriptor data leaf hm
    obtain ⟨entry, hentry, rest, rfl, hrest⟩ := Shape.exists_of_mem_routesOf hm
    refine List.forall_mem_cons.mpr ⟨hkeys entry hentry, ?_⟩
    rcases hrest with hnil | ⟨child, value, -, hroute⟩
    · simp [hnil]
    · exact hnodes entry hentry child value rest hroute
  induction node using Node.ind with
  | field role => exact fun _ descriptor data leaf hm => absurd hm List.not_mem_nil
  | one shape ih =>
      intro h
      obtain ⟨hkeys, hnodes⟩ := Shape.allKeys_iff.mp (h shape rfl)
      exact hone shape hkeys fun entry hm => ih entry hm (hnodes entry hm)
  | many shape ih =>
      intro h descriptor data leaf hm
      obtain ⟨hkeys, hnodes⟩ := Shape.allKeys_iff.mp (h shape rfl)
      cases data with
      | array items =>
          obtain ⟨item, -, hleaf⟩ := List.mem_flatMap.mp hm
          obtain ⟨rest, hrest, rfl⟩ := List.mem_map.mp hleaf
          exact List.forall_mem_cons.mpr ⟨hindex item.2,
            hone shape hkeys (fun entry hm => ih entry hm (hnodes entry hm)) descriptor item.1
              rest hrest⟩
      | _ => cases hm

end Keys

/-! ### Paths -/

/-- Segments joined by dots. -/
def joinDots (segments : List String) : String :=
  String.ofList (Text.join '.' (segments.map String.toList))

/-- A leaf as an entry of a flat object. -/
def Leaf.flatEntry (leaf : Leaf) : String × Json :=
  (joinDots leaf.texts, leaf.2)

/-- Segments without dots are told apart by what they are joined to. -/
lemma joinDots_injective {segments others : List String} (hne : segments ≠ []) (hne' : others ≠ [])
    (h : ∀ text ∈ segments, '.' ∉ text.toList) (h' : ∀ text ∈ others, '.' ∉ text.toList)
    (heq : joinDots segments = joinDots others) : segments = others := by
  have hparts : ∀ {list : List String}, (∀ text ∈ list, '.' ∉ text.toList) →
      ∀ part ∈ list.map String.toList, '.' ∉ part := by
    intro list hlist part hm
    obtain ⟨text, htext, rfl⟩ := List.mem_map.mp hm
    exact hlist text htext
  have hlists : segments.map String.toList = others.map String.toList :=
    Text.join_injective (by simpa using hne) (by simpa using hne') (hparts h) (hparts h')
      (String.ofList_inj.mp heq)
  exact List.map_injective_iff.mpr (fun _ _ => String.toList_inj.mp) hlists

/-- Below a path that is not empty the texts of the steps are further segments. -/
lemma toList_joinSteps {path : String} (h : path ≠ "") (steps : List Step) :
    (joinSteps path steps).toList
      = Text.join '.' (path.toList :: steps.map fun step => step.text.toList) := by
  induction steps generalizing path with
  | nil => rfl
  | cons step steps ih =>
      have hjoin : joinSegment path step.text = path ++ "." ++ step.text := if_neg h
      have hne : joinSegment path step.text ≠ "" := by
        intro hempty
        have hlist := congrArg String.toList (hjoin.symm.trans hempty)
        simp at hlist
      calc (joinSteps path (step :: steps)).toList
          = (joinSteps (joinSegment path step.text) steps).toList := rfl
        _ = Text.join '.' ((joinSegment path step.text).toList
              :: steps.map fun step => step.text.toList) := ih hne
        _ = Text.join '.' ((path.toList ++ '.' :: step.text.toList)
              :: steps.map fun step => step.text.toList) := by
            rw [hjoin]
            simp
        _ = Text.join '.' (path.toList
              :: (step :: steps).map fun step => step.text.toList) :=
            Text.join_cons_append ..

/-- The path of a way is its segments joined by dots, unless the first of several segments
is empty. -/
lemma joinSteps_eq_joinDots {step : Step} {steps : List Step} (h : step.text = "" → steps = []) :
    joinSteps "" (step :: steps) = joinDots ((step :: steps).map Step.text) := by
  have hfirst : joinSteps "" (step :: steps) = joinSteps step.text steps := rfl
  rw [hfirst]
  by_cases hstep : step.text = ""
  · rw [h hstep]
    exact String.ofList_toList.symm
  · rw [← String.toList_inj, toList_joinSteps hstep, joinDots, String.toList_ofList,
      List.map_cons, List.map_cons, List.map_map]
    rfl

namespace Shape

variable {shape : Shape} {descriptor : Descriptor}

/-- The leaves of a root object are its kept fields under their paths. An empty key would
vanish from a path, but the relation under it is not followed. -/
lemma leavesOf_eq_map_flatEntry (hroot : "" ∈ Entries.keys shape → descriptor.child? "" = none)
    (data : Json) :
    shape.leavesOf descriptor "" data = (shape.routesOf descriptor data).map Leaf.flatEntry := by
  rw [leavesOf_eq_map (fun entry _ => entry.2.leaves_eq_map)]
  refine List.map_congr_left fun leaf hm => ?_
  obtain ⟨entry, hentry, rest, rfl, hrest⟩ := exists_of_mem_routesOf hm
  have hfirst : (Step.key entry.1).text = "" → rest.1 = [] := by
    intro hkey
    have hempty : entry.1 = "" := hkey
    rcases hrest with hnil | ⟨child, value, hchild, -⟩
    · exact hnil
    · have hnone := hroot (hempty ▸ List.mem_map_of_mem hentry)
      rw [hempty, hnone] at hchild
      cases hchild
  exact Prod.ext (joinSteps_eq_joinDots hfirst) rfl

/-- **Without dots in the keys** all paths are different. -/
lemma nodup_keys_map_flatEntry (hn : Node.Distinct (.one shape))
    (hkeys : Node.AllKeys (fun key => '.' ∉ key.toList) (.one shape)) (data : Json) :
    (Entries.keys ((shape.routesOf descriptor data).map Leaf.flatEntry)).Nodup := by
  have hways := (Node.one shape).nodup_texts_routes hn descriptor data
  rw [Node.routes_one] at hways
  have hdotless := (Node.one shape).forall_texts_routes dot_notMem_index hkeys descriptor data
  rw [Node.routes_one] at hdotless
  have hne : ∀ leaf ∈ shape.routesOf descriptor data, leaf.texts ≠ [] := by
    intro leaf hm
    obtain ⟨entry, -, rest, rfl, -⟩ := exists_of_mem_routesOf hm
    exact List.cons_ne_nil _ _
  have hmap := hways.map_on (f := joinDots) fun texts hm others hm' heq => by
    obtain ⟨leaf, hleaf, rfl⟩ := List.mem_map.mp hm
    obtain ⟨other, hother, rfl⟩ := List.mem_map.mp hm'
    exact joinDots_injective (hne leaf hleaf) (hne other hother) (hdotless leaf hleaf)
      (hdotless other hother) heq
  rw [List.map_map] at hmap
  rw [Entries.keys, List.map_map]
  exact hmap

end Shape

end FieldSelection
