import Mathlib.Data.List.Sort
import FieldSelection.Proofs.Level.Filters
import FieldSelection.Proofs.Level.Simulation

/-!
Tokens that ask for the same.

Different tokens may ask for the same at a place: names count in the order of their first
mention only, of the filters on a field the last one counts, and relations that the place
does not know do not count at all.

* `distinctNames_append`: the names of two lists, in the order of their first mention.
* `Entries.Sorted.forall₂`, `Entries.Sorted.ext`: sorted entries are told by look-ups.
* `Place.Equivalent`: tokens that ask for the same at their own level, as those do that differ
  in the bodies of relations only (`Equivalent.of_besides`); `Equivalent.compiled_eq` makes the
  same level of them if their bodies make the same levels below it.
* `Place.map_association_includes`: the relations that a level lists, in order.
-/

namespace FieldSelection

open FieldSelection.Selection

/-! ### Names of two lists -/

/-- The names of the second list come behind, as far as they are not in the first one. -/
lemma distinctNames_append (names others : List String) :
    distinctNames (names ++ others)
      = distinctNames names ++ (distinctNames others).filter (· ∉ names) := by
  induction others using List.reverseRecOn with
  | nil => simp [distinctNames]
  | append_singleton others last ih =>
      rw [← List.append_assoc, distinctNames_append_singleton, distinctNames_append_singleton, ih]
      by_cases hfirst : last ∈ names
      · by_cases hsecond : last ∈ others <;> simp [insertName, hfirst, hsecond]
      · by_cases hsecond : last ∈ others <;> simp [insertName, hfirst, hsecond]

/-- Names that are mentioned again add nothing. -/
lemma distinctNames_append_self (names : List String) :
    distinctNames (names ++ names) = distinctNames names := by
  have hnone : (distinctNames names).filter (· ∉ names) = [] := by
    rw [List.filter_eq_nil_iff]
    intro name hname
    simpa using hname
  rw [distinctNames_append, hnone, List.append_nil]

/-- A name that was mentioned before adds nothing. -/
lemma distinctNames_append_cons {name : String} {names : List String} (h : name ∈ names)
    (others : List String) :
    distinctNames (names ++ name :: others) = distinctNames (names ++ others) := by
  have hagain : distinctNames (names ++ [name]) = distinctNames names := by
    rw [distinctNames_append_singleton, insertName, if_pos (mem_distinctNames.mpr h)]
  rw [List.append_cons, distinctNames, List.foldl_append, ← distinctNames, hagain, distinctNames,
    distinctNames, List.foldl_append]

/-! ### Tokens besides relations -/

/-- The tokens that are not about a relation to follow. -/
def besidesRelations (tokens : List Token) : List Token :=
  tokens.filter fun token => (relationName? token).isNone

/-- What is not about such relations is said by the other tokens. -/
lemma filterMap_besidesRelations {α : Type} {f : Token → Option α}
    (hf : ∀ name body, f (.relation name body) = none) (tokens : List Token) :
    (besidesRelations tokens).filterMap f = tokens.filterMap f := by
  rw [besidesRelations, List.filterMap_filter]
  refine List.filterMap_congr fun token _ => ?_
  cases token <;> simp [relationName?, hf]

lemma all_mem_besidesRelations {tokens : List Token} :
    .all ∈ besidesRelations tokens ↔ .all ∈ tokens := by
  simp [besidesRelations, relationName?]

/-! ### Sorted entries -/

/-- What relates two lists item by item may be weakened knowing that the items are from these
lists. -/
lemma forall₂_imp_of_mem {α β : Type} {S T : α → β → Prop} {items : List α} {others : List β}
    (h : List.Forall₂ S items others)
    (himp : ∀ item ∈ items, ∀ other ∈ others, S item other → T item other) :
    List.Forall₂ T items others :=
  List.forall₂_iff_zip.mpr ⟨h.length_eq, fun hm =>
    himp _ (List.of_mem_zip hm).1 _ (List.of_mem_zip hm).2 (List.forall₂_zip h hm)⟩

/-- Sorted entries are equal, entry by entry, if equal values are found under every key. -/
lemma Entries.Sorted.forall₂ {α β : Type} {S : α → β → Prop} {entries : List (String × α)}
    {others : List (String × β)} (h : Sorted entries) (h' : Sorted others)
    (hlookup : ∀ key, Option.Rel S (lookup? key entries) (lookup? key others)) :
    List.Forall₂ (fun entry other => entry.1 = other.1 ∧ S entry.2 other.2) entries others := by
  have hkeys : keys entries = keys others := by
    refine List.Pairwise.eq_of_mem_iff h h' fun key => ?_
    rw [← isSome_lookup?_iff, ← isSome_lookup?_iff, isSome_eq_of_rel (hlookup key)]
  have hfound : ∀ entry ∈ entries, ∀ other ∈ others, entry.1 = other.1 → S entry.2 other.2 := by
    rintro ⟨key, value⟩ hm ⟨_, found⟩ hm' rfl
    have hrel := hlookup key
    rw [lookup?_of_mem h.nodup_keys hm, lookup?_of_mem h'.nodup_keys hm'] at hrel
    cases hrel with
    | some hvalue => exact hvalue
  rw [keys, keys, ← List.forall₂_eq_eq_eq, List.forall₂_map_left_iff,
    List.forall₂_map_right_iff] at hkeys
  exact forall₂_imp_of_mem hkeys fun entry hm other hm' hkey =>
    ⟨hkey, hfound entry hm other hm' hkey⟩

/-- Entries in the order of their keys are the same if the same is found under every key. -/
lemma Entries.Sorted.ext {α : Type} {entries others : List (String × α)}
    (h : Entries.Sorted entries) (h' : Entries.Sorted others)
    (hlookup : ∀ key, Entries.lookup? key entries = Entries.lookup? key others) :
    entries = others := by
  have hentries := h.forall₂ h' fun key => rel_eq_iff.mpr (hlookup key)
  rw [← List.forall₂_eq_eq_eq]
  exact hentries.imp fun _ _ hentry => Prod.ext hentry.1 hentry.2

/-! ### One level -/

namespace Place

variable {options : CompileOptions} {query : Query} {place : Place} {keysMode : Bool}
  {tokens tokens' : List Token}

/-- The relations that tokens name and the place knows. -/
def named (place : Place) (tokens : List Token) : List String :=
  (relationNames tokens).filter fun name => (place.enter? name).isSome

/-- **Tokens that ask for the same** at their own level: for the same fields, exclusions and
filters, and behind the same relations. -/
structure Equivalent (place : Place) (keysMode : Bool) (tokens tokens' : List Token) : Prop where
  wanted : distinctNames (tokens.filterMap place.wanted?)
    = distinctNames (tokens'.filterMap place.wanted?)
  unwanted : distinctNames (tokens.filterMap place.unwanted?)
    = distinctNames (tokens'.filterMap place.unwanted?)
  unwantedRelations : distinctNames (place.unwantedRelations tokens)
    = distinctNames (place.unwantedRelations tokens')
  inline : ∀ name, place.inline? keysMode tokens name = place.inline? keysMode tokens' name
  all : .all ∈ tokens ↔ .all ∈ tokens'
  named : place.named tokens = place.named tokens'

/-- Tokens that are the same but for those of relations, and name the same ones that the place
knows, ask for the same. -/
lemma Equivalent.of_besides (hbesides : besidesRelations tokens = besidesRelations tokens')
    (hnamed : place.named tokens = place.named tokens') :
    place.Equivalent keysMode tokens tokens' := by
  have hfilterMap : ∀ f : Token → Option String, (∀ name body, f (.relation name body) = none) →
      tokens.filterMap f = tokens'.filterMap f := by
    intro f hf
    rw [← filterMap_besidesRelations hf, hbesides, filterMap_besidesRelations hf]
  exact {
    wanted := by rw [hfilterMap _ fun _ _ => rfl]
    unwanted := by rw [hfilterMap _ fun _ _ => rfl]
    unwantedRelations := by
      rw [Place.unwantedRelations, Place.unwantedRelations, hfilterMap _ fun _ _ => rfl]
    inline := by
      intro name
      rw [inline?, inline?, hfilterMap _ fun _ _ => rfl]
    all := by rw [← all_mem_besidesRelations, hbesides, all_mem_besidesRelations]
    named := hnamed }

/-- A level does not depend on the relations of its request. -/
lemma level_congr {request request' : Request}
    (hattributes : request.attributes = request'.attributes)
    (hexcluded : request.excluded = request'.excluded)
    (hrelations : request.excludedRelations = request'.excludedRelations)
    (hfilters : request.filters = request'.filters) (hall : request.all = request'.all)
    (includes : List Descriptor) :
    place.level options query request includes = place.level options query request' includes := by
  obtain ⟨attributes, excluded, excludedRelations, filters, relations, all⟩ := request
  obtain rfl : attributes = _ := hattributes
  obtain rfl : excluded = _ := hexcluded
  obtain rfl : excludedRelations = _ := hrelations
  obtain rfl : filters = _ := hfilters
  obtain rfl : all = _ := hall
  rfl

namespace Equivalent

lemma filters_eq (h : Equivalent place keysMode tokens tokens') :
    (place.asked keysMode tokens).filters = (place.asked keysMode tokens').filters := by
  refine (place.sorted_filters_asked keysMode tokens).ext
    (place.sorted_filters_asked keysMode tokens') fun name => ?_
  rw [lookup?_filters_asked, lookup?_filters_asked, h.inline]

lemma level_eq (h : Equivalent place options.includeKeys tokens tokens')
    (includes : List Descriptor) :
    place.level options query (place.asked options.includeKeys tokens) includes
      = place.level options query (place.asked options.includeKeys tokens') includes := by
  refine level_congr ?_ ?_ ?_ h.filters_eq ?_ includes
  · rw [asked_attributes, asked_attributes, h.wanted]
  · rw [asked_excluded, asked_excluded, h.unwanted]
  · rw [asked_excludedRelations, asked_excludedRelations]
    exact h.unwantedRelations
  · rw [asked_all, asked_all, decide_eq_decide]
    exact h.all

/-- What `all` adds to the relations that are named, as far as the place knows it. -/
lemma known_unnamed_eq (h : Equivalent place keysMode tokens tokens') :
    (place.unnamed tokens).filter (fun name => (place.enter? name).isSome)
      = (place.unnamed tokens').filter fun name => (place.enter? name).isSome := by
  have hnamed : ∀ name, (place.enter? name).isSome →
      (name ∈ relationNames tokens ↔ name ∈ relationNames tokens') := by
    intro name hname
    have hmem : name ∈ place.named tokens ↔ name ∈ place.named tokens' := by rw [h.named]
    simpa [Place.named, hname] using hmem
  have hunwanted : ∀ name, name ∈ place.unwantedRelations tokens
      ↔ name ∈ place.unwantedRelations tokens' := by
    intro name
    rw [← mem_distinctNames, h.unwantedRelations, mem_distinctNames]
  rw [Simulation.known_unnamed, Simulation.known_unnamed]
  simp only [h.all]
  split
  · refine List.filter_congr fun name hname => ?_
    rw [decide_eq_decide.mpr (not_congr (hnamed name (List.mem_filter.mp hname).2)),
      decide_eq_decide.mpr (not_congr (hunwanted name))]
  · rfl

/-- **The same level** is made of tokens that ask for the same, if the same levels below it are
made of their bodies. -/
lemma compiled_eq (h : Equivalent place options.includeKeys tokens tokens') (room : Nat)
    (hbelow : ∀ room' < room, ∀ name next, place.enter? name = some next →
      next.compiled options query room' (bodyTokens name tokens)
        = next.compiled options query room' (bodyTokens name tokens')) :
    place.compiled options query room tokens = place.compiled options query room tokens' := by
  cases room with
  | zero => rw [compiled_zero, compiled_zero, h.level_eq]
  | succ room =>
      have hnamed : (relationNames tokens).filterMap (fun name =>
            place.below options query room name (bodyTokens name tokens))
          = (relationNames tokens').filterMap fun name =>
            place.below options query room name (bodyTokens name tokens') := by
        rw [Simulation.filterMap_below _ _ _ _ (bodyTokens · tokens),
          Simulation.filterMap_below _ _ _ _ (bodyTokens · tokens'), ← Place.named, h.named]
        refine List.filterMap_congr fun name _ => Option.map_congr fun next hnext => ?_
        rw [hbelow room room.lt_succ_self name next hnext]
      have hunnamed : (place.unnamed tokens).filterMap
            (fun name => place.below options query room name [.all])
          = (place.unnamed tokens').filterMap fun name =>
            place.below options query room name [.all] := by
        rw [Simulation.filterMap_below, h.known_unnamed_eq, ← Simulation.filterMap_below]
      rw [compiled_succ, compiled_succ, h.level_eq, hnamed, hunnamed]

end Equivalent

end Place

/-! ### The relations that a level lists -/

namespace Place

variable (options : CompileOptions) (query : Query) (place : Place)

lemma map_association_below (room : Nat) (tokens : String → List Token) (names : List String) :
    (names.filterMap fun name => place.below options query room name (tokens name)).map
        (·.association)
      = (names.filter fun name => (place.enter? name).isSome).map some := by
  induction names with
  | nil => rfl
  | cons name names ih =>
      cases h : place.enter? name <;> simp [below, h, ← ih, Descriptor.under]

/-- With room, a level lists the known relations that are named, and then those that a token
`all` adds. -/
lemma map_association_includes (room : Nat) (tokens : List Token) :
    (place.compiled options query (room + 1) tokens).includes.map (·.association)
      = (place.named tokens
          ++ (place.unnamed tokens).filter fun name => (place.enter? name).isSome).map some := by
  rw [includes_compiled, List.map_append, map_association_below options query place room
    (bodyTokens · tokens), map_association_below options query place room fun _ => [.all],
    ← List.map_append, named]

end Place

end FieldSelection
