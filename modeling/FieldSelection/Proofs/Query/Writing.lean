import FieldSelection.Proofs.Query.Pairs

/-!
Queries as JSON.

A query is written as one object: its reserved keys, as far as they are present, and its filters
stand next to each other. Reading tells them apart by their keys alone, so a query is read back as
it was exactly if none of its filters is under a reserved key, none is repeated, and `null` stands
for no parameter. Every query that is made of pairs or read from JSON is like that.

* `Query.Plain`: the queries that can be told from what is written.
* `Query.ReadsFrom`, `Query.ofEntries_eq_some_iff`: the query that is read from entries, part by
  part.
* `Query.ofJson_toJson_iff`: a query is read back as it was exactly if it is plain.
* `Query.plain_ofPairs`, `Query.plain_of_ofJson`: what is made of pairs or read is plain.
* `Query.Obtained.ofJson_toJson`: so it survives its JSON form.
-/

namespace FieldSelection.Query

variable {query : Query} {entries : List (String × Json)}

/-- A query that keeps its filters apart from its reserved keys: no filter is under one, none is
repeated, and no parameter is `null`, which reads as absent. -/
structure Plain (query : Query) : Prop where
  nodup : (Entries.keys query.filters).Nodup
  unreserved : ∀ key ∈ Entries.keys query.filters, key ∉ reservedKeys
  limit : query.limit ≠ some .null
  offset : query.offset ≠ some .null
  col : query.col ≠ some .null
  distinct : query.distinct ≠ some .null

/-! ### Values under reserved keys -/

/-- A parameter that is `null` is not passed on. -/
lemma valueOf_ne_null (value : Option Json) : valueOf value ≠ some .null := by
  intro h
  simpa using (Option.filter_eq_some_iff.mp h).2

lemma valueOf_eq_self_iff {value : Option Json} : valueOf value = value ↔ value ≠ some .null := by
  constructor
  · intro h
    rw [← h]
    exact valueOf_ne_null value
  · intro h
    cases value with
    | none => rfl
    | some other => simpa [valueOf, Option.filter_some] using h

/-- A text is read as it was written. -/
lemma textOf_map_string (text : Option String) : textOf (text.map .string) = some text := by
  cases text <;> rfl

/-! ### What is written -/

/-- The parts of a query under its reserved keys, as far as they are present. -/
def parts (query : Query) : List (String × Option Json) :=
  [ ("fields", query.fields.map .string), ("order", query.order.map .string),
    ("limit", query.limit), ("offset", query.offset), ("col", query.col),
    ("distinct", query.distinct) ]

lemma nodup_reservedKeys : reservedKeys.Nodup := by decide

/-- What is written of the parts stands under reserved keys, in their order. -/
lemma keys_reserved_sublist (query : Query) :
    (Entries.keys query.reserved).Sublist reservedKeys :=
  Entries.keys_filterMap_sublist query.parts fun part => part.2

lemma lookup?_reserved (query : Query) (key : String) :
    Entries.lookup? key query.reserved = (Entries.lookup? key query.parts).bind id := by
  have hnodup : (Entries.keys query.parts).Nodup := nodup_reservedKeys
  exact Entries.lookup?_filterMap hnodup (fun _ part => part) key

/-! ### What is read -/

/-- The entries under reserved keys. -/
def reservedEntries (entries : List (String × Json)) : List (String × Json) :=
  entries.filter fun entry => entry.1 ∈ reservedKeys

/-- The entries under other keys. -/
def filterEntries (entries : List (String × Json)) : List (String × Json) :=
  entries.filter fun entry => entry.1 ∉ reservedKeys

/-- **A query that is read from entries**: no reserved key is repeated, the parts are what stands
under them, and of the other keys a repeated one keeps its first place and its last value. -/
structure ReadsFrom (entries : List (String × Json)) (query : Query) : Prop where
  nodup : (Entries.keys (reservedEntries entries)).Nodup
  fields : textOf (Entries.lookup? "fields" (reservedEntries entries)) = some query.fields
  order : textOf (Entries.lookup? "order" (reservedEntries entries)) = some query.order
  limit : valueOf (Entries.lookup? "limit" (reservedEntries entries)) = query.limit
  offset : valueOf (Entries.lookup? "offset" (reservedEntries entries)) = query.offset
  col : valueOf (Entries.lookup? "col" (reservedEntries entries)) = query.col
  distinct : valueOf (Entries.lookup? "distinct" (reservedEntries entries)) = query.distinct
  filters : Entries.merge (filterEntries entries) = query.filters

/-- **Reading** finds the query that is read from the entries, if there is one. -/
lemma ofEntries_eq_some_iff : ofEntries entries = some query ↔ ReadsFrom entries query := by
  have hparts : entries.partition (fun entry => decide (entry.1 ∈ reservedKeys))
      = (reservedEntries entries, filterEntries entries) := by
    rw [List.partition_eq_filter_filter, reservedEntries, filterEntries]
    simp [Function.comp_def]
  rw [ofEntries, hparts]
  simp only [Option.bind_eq_bind, Option.bind_eq_some_iff, Option.some.injEq, Option.guard_eq_some']
  constructor
  · rintro ⟨-, hnodup, fields, hfields, order, horder, rfl⟩
    exact ⟨hnodup, hfields, horder, rfl, rfl, rfl, rfl, rfl⟩
  · intro h
    refine ⟨(), h.nodup, _, h.fields, _, h.order, ?_⟩
    rw [h.limit, h.offset, h.col, h.distinct, h.filters]

/-! ### Reading what is written -/

/-- Of what is written, the reserved keys hold the parts, and the other keys hold the filters. -/
lemma reservedEntries_toJson (h : ∀ key ∈ Entries.keys query.filters, key ∉ reservedKeys) :
    reservedEntries (query.reserved ++ query.filters) = query.reserved ∧
      filterEntries (query.reserved ++ query.filters) = query.filters := by
  have hreserved : ∀ entry ∈ query.reserved, entry.1 ∈ reservedKeys := fun entry hentry =>
    (keys_reserved_sublist query).subset (List.mem_map_of_mem hentry)
  have hfilters : ∀ entry ∈ query.filters, entry.1 ∉ reservedKeys := fun entry hentry =>
    h entry.1 (List.mem_map_of_mem hentry)
  constructor
  · have hkept : reservedEntries query.reserved = query.reserved :=
      List.filter_eq_self.mpr fun entry hentry => decide_eq_true (hreserved entry hentry)
    have hdropped : reservedEntries query.filters = [] :=
      List.filter_eq_nil_iff.mpr fun entry hentry heq =>
        hfilters entry hentry (of_decide_eq_true heq)
    rw [reservedEntries, List.filter_append, ← reservedEntries, ← reservedEntries, hkept, hdropped,
      List.append_nil]
  · have hdropped : filterEntries query.reserved = [] :=
      List.filter_eq_nil_iff.mpr fun entry hentry heq =>
        absurd (hreserved entry hentry) (of_decide_eq_true heq)
    have hkept : filterEntries query.filters = query.filters :=
      List.filter_eq_self.mpr fun entry hentry => decide_eq_true (hfilters entry hentry)
    rw [filterEntries, List.filter_append, ← filterEntries, ← filterEntries, hdropped, hkept,
      List.nil_append]

/-- A plain query is read from what is written of it. -/
lemma Plain.readsFrom (h : query.Plain) : ReadsFrom (query.reserved ++ query.filters) query := by
  obtain ⟨hreserved, hfilters⟩ := reservedEntries_toJson h.unreserved
  have hvalue : ∀ key, Entries.lookup? key (reservedEntries (query.reserved ++ query.filters))
      = (Entries.lookup? key query.parts).bind id := fun key => by
    rw [hreserved, lookup?_reserved]
  exact
    { nodup := by
        rw [hreserved]
        exact nodup_reservedKeys.sublist (keys_reserved_sublist query)
      fields := by
        rw [hvalue]
        exact textOf_map_string query.fields
      order := by
        rw [hvalue]
        exact textOf_map_string query.order
      limit := by
        rw [hvalue]
        exact valueOf_eq_self_iff.mpr h.limit
      offset := by
        rw [hvalue]
        exact valueOf_eq_self_iff.mpr h.offset
      col := by
        rw [hvalue]
        exact valueOf_eq_self_iff.mpr h.col
      distinct := by
        rw [hvalue]
        exact valueOf_eq_self_iff.mpr h.distinct
      filters := by
        rw [hfilters]
        exact Entries.merge_of_nodup h.nodup }

/-- **What is read is plain**, whatever the entries are. -/
lemma ReadsFrom.plain (h : ReadsFrom entries query) : query.Plain where
  nodup := by
    rw [← h.filters]
    exact Entries.nodup_keys_merge _
  unreserved key hkey := by
    rw [← h.filters, Entries.mem_keys_merge] at hkey
    obtain ⟨entry, hentry, rfl⟩ := List.mem_map.mp hkey
    exact of_decide_eq_true (List.mem_filter.mp hentry).2
  limit := h.limit ▸ valueOf_ne_null _
  offset := h.offset ▸ valueOf_ne_null _
  col := h.col ▸ valueOf_ne_null _
  distinct := h.distinct ▸ valueOf_ne_null _

/-- **A query is read back as it was** exactly if it is plain. -/
lemma ofJson_toJson_iff : ofJson query.toJson = some query ↔ query.Plain := by
  rw [toJson, ofJson, ofEntries_eq_some_iff]
  exact ⟨ReadsFrom.plain, Plain.readsFrom⟩

/-! ### Queries that come about -/

lemma plain_of_ofJson {value : Json} (h : ofJson value = some query) : query.Plain := by
  cases value with
  | object entries => exact (ofEntries_eq_some_iff.mp h).plain
  | _ => cases h

/-- No parameter that is made of a text is `null`. -/
lemma map_ne_null {read : String → Json} (hread : ∀ text, read text ≠ .null)
    (text : Option String) : text.map read ≠ some .null := by
  intro h
  obtain ⟨other, -, hnull⟩ := Option.map_eq_some_iff.mp h
  exact hread other hnull

lemma numberOrText_ne_null (text : String) : numberOrText text ≠ .null := by
  rw [numberOrText]
  split <;> simp [Json.nat]

lemma boolOrText_ne_null (text : String) : boolOrText text ≠ .null := by
  simp only [boolOrText]
  split_ifs <;> simp

/-- **What is made of pairs is plain**: a reserved key is never put among the filters, and a
repeated key replaces what stands under it. -/
lemma plain_ofPairs (pairs : List (String × String)) : (ofPairs pairs).Plain where
  nodup := by
    induction pairs using List.reverseRecOn with
    | nil => exact List.nodup_nil
    | append_singleton pairs pair ih =>
        rw [ofPairs_append_singleton, addPair_eq]
        dsimp only
        split
        · exact ih
        · exact Entries.nodup_keys_put ih
  unreserved key hkey hreserved := by
    rw [← Entries.isSome_lookup?_iff, lookup?_filters_ofPairs, if_pos hreserved] at hkey
    cases hkey
  limit := by
    rw [part_ofPairs limit "limit" numberOrText rfl fun _ _ _ => by rw [addPair_eq]]
    exact map_ne_null numberOrText_ne_null _
  offset := by
    rw [part_ofPairs offset "offset" numberOrText rfl fun _ _ _ => by rw [addPair_eq]]
    exact map_ne_null numberOrText_ne_null _
  col := by
    rw [part_ofPairs col "col" .string rfl fun _ _ _ => by rw [addPair_eq]]
    exact map_ne_null (fun _ => Json.noConfusion) _
  distinct := by
    rw [part_ofPairs distinct "distinct" boolOrText rfl fun _ _ _ => by rw [addPair_eq]]
    exact map_ne_null boolOrText_ne_null _

/-- **How queries come about**: from keys with texts, from a JSON value, or from a JSON text. -/
inductive Obtained : Query → Prop where
  | pairs (pairs : List (String × String)) : Obtained (ofPairs pairs)
  | json {value : Json} {query : Query} (h : ofJson value = some query) : Obtained query
  | text {text : String} {query : Query} (h : parse text = some query) : Obtained query

/-- **Queries survive their JSON form**, however they came about: no reserved key is among their
filters, and what is written of a query is read as the same query, with the same parts and the same
filters in the same order. -/
theorem Obtained.ofJson_toJson (h : query.Obtained) :
    (∀ key ∈ reservedKeys, key ∉ Entries.keys query.filters) ∧
      ofJson query.toJson = some query := by
  have hplain : query.Plain := by
    cases h with
    | pairs pairs => exact plain_ofPairs pairs
    | json h => exact plain_of_ofJson h
    | text h =>
        obtain ⟨value, -, hvalue⟩ := Option.bind_eq_some_iff.mp h
        exact plain_of_ofJson hvalue
  refine ⟨fun key hreserved hkey => hplain.unreserved key hkey hreserved, ?_⟩
  exact ofJson_toJson_iff.mpr hplain

/-- Asks twice for a page and twice for a title, at last for none. -/
def pagePairs : List (String × String) :=
  [("title", "Emma"), ("limit", " 7"), ("fields", "all"), ("title", ""), ("limit", "+010"),
    ("limits", "7")]

/-- An object with `null` under a reserved key and under other keys, one of them repeated. -/
def pageValue : Json :=
  .object [("genre", .string "tale"), ("limit", .null), ("title", .null), ("offset", .nat 20),
    ("genre", .null)]

/-- What is written of both: the number of the last page, the empty title and the filters with
`null` are there, and a reserved key with `null` is not. -/
theorem ofJson_toJson_pages :
    (ofPairs pagePairs).toJson = .object [("fields", .string "all"), ("limit", .nat 10),
        ("title", .string ""), ("limits", .string "7")] ∧
      ofJson (ofPairs pagePairs).toJson = some (ofPairs pagePairs) ∧
      ∃ query, ofJson pageValue = some query ∧
        query.toJson = .object [("offset", .nat 20), ("genre", .null), ("title", .null)] ∧
        ofJson query.toJson = some query := by
  have hread : ofJson pageValue
      = some { offset := some (.nat 20), filters := [("genre", .null), ("title", .null)] } := by
    decide +kernel
  exact ⟨by decide +kernel, (Obtained.pairs pagePairs).ofJson_toJson.2, _, hread, rfl,
    (Obtained.json hread).ofJson_toJson.2⟩

end FieldSelection.Query
