import FieldSelection.Order
import FieldSelection.Proofs.Text.Separated
import FieldSelection.Proofs.Text.Trim

/-!
Ordering texts, read and written.

An entry can be written as the field that it was read from, and a list of entries as a text with
commas between them. What is lost in reading is only the blanks around the fields, and the blank
ones among them.

* `OrderEntry.written`, `writtenOrder`: entries as they are written.
* `orderFields`: the fields of an ordering text; `parseOrder` reads them one by one, and
  `orderFields_join` finds them again in the text that they are joined to.
* `parseOrder_lossless`: reading loses nothing, and it turns commas into appends.
* `filter_pathText_parseOrder`: only a field that is a dash and nothing else names no field.
-/

namespace FieldSelection

open FieldSelection.Text

/-! ### Entries as they are written -/

/-- What is written in front of a path for its direction. -/
def Direction.mark : Direction → List Char
  | .ascending => []
  | .descending => ['-']

/-- The path of an entry, its segments joined by dots. -/
def OrderEntry.pathText (entry : OrderEntry) : List Char :=
  join '.' (entry.path.map String.toList)

/-- An entry as it is written. -/
def OrderEntry.written (entry : OrderEntry) : List Char :=
  entry.direction.mark ++ entry.pathText

/-- Entries as they are written, with commas between them. -/
def writtenOrder (entries : List OrderEntry) : List Char :=
  join ',' (entries.map OrderEntry.written)

/-- The segments of a dotted path, joined by dots, are the path. -/
lemma join_dottedPath (text : List Char) :
    join '.' ((dottedPath text).map String.toList) = text := by
  have htoList : String.toList ∘ String.ofList = id := funext fun _ => String.toList_ofList
  rw [dottedPath, List.map_map, htoList, List.map_id, join_split]

lemma OrderEntry.parse_dash (field : List Char) :
    parse ('-' :: field) = ⟨dottedPath field, .descending⟩ :=
  rfl

lemma OrderEntry.parse_of_head {field : List Char} (h : field.head? ≠ some '-') :
    parse field = ⟨dottedPath field, .ascending⟩ := by
  unfold parse
  split
  · exact absurd rfl h
  · rfl

/-- A field either descends behind a dash or ascends. -/
lemma exists_dash_or_head (field : List Char) :
    (∃ rest, field = '-' :: rest) ∨ field.head? ≠ some '-' := by
  cases field with
  | nil => exact Or.inr nofun
  | cons c rest =>
      by_cases hc : c = '-'
      · exact Or.inl ⟨rest, by rw [hc]⟩
      · exact Or.inr fun h => hc (Option.some.inj h)

/-- **An entry is written as the field** that it was read from. -/
lemma OrderEntry.written_parse (field : List Char) : (parse field).written = field := by
  rcases exists_dash_or_head field with ⟨rest, rfl⟩ | h
  · rw [parse_dash, written, pathText, join_dottedPath]
    rfl
  · rw [parse_of_head h, written, pathText, join_dottedPath]
    rfl

/-! ### The fields of an ordering text -/

/-- The fields of an ordering text: its parts without the blanks around them, blank ones left
out. -/
def orderFields (text : List Char) : List (List Char) :=
  ((split ',' text).map trim).filter (· ≠ [])

lemma parseOrder_eq (text : List Char) :
    parseOrder text = (orderFields text).map OrderEntry.parse :=
  rfl

/-- **Fields that can be joined**: there is something in them, but no comma, and no blanks at their
ends. -/
structure OrderField (field : List Char) : Prop where
  trim_eq : trim field = field
  ne_nil : field ≠ []
  comma : ',' ∉ field

lemma orderField_of_mem {text field : List Char} (h : field ∈ orderFields text) :
    OrderField field := by
  obtain ⟨hmem, hne⟩ := List.mem_filter.mp h
  obtain ⟨part, hpart, rfl⟩ := List.mem_map.mp hmem
  exact {
    trim_eq := trim_trim part
    ne_nil := of_decide_eq_true hne
    comma := fun hcomma => notMem_of_mem_split hpart ((trim_sublist part).subset hcomma) }

/-- Joined fields are found again. -/
lemma orderFields_join {fields : List (List Char)} (h : ∀ field ∈ fields, OrderField field) :
    orderFields (join ',' fields) = fields := by
  by_cases hnil : fields = []
  · subst hnil
    rfl
  · have htrim : fields.map trim = fields :=
      (List.map_congr_left fun field hm => (h field hm).trim_eq).trans (List.map_id fields)
    rw [orderFields, split_join hnil fun field hm => (h field hm).comma, htrim,
      List.filter_eq_self]
    exact fun field hm => decide_eq_true (h field hm).ne_nil

/-- A comma between two texts separates their fields. -/
lemma orderFields_append_comma (text rest : List Char) :
    orderFields (text ++ ',' :: rest) = orderFields text ++ orderFields rest := by
  rw [orderFields, split_append_cons, List.map_append, List.filter_append]
  rfl

/-- Entries are written as the fields that they were read from. -/
lemma map_written_parseOrder (text : List Char) :
    (parseOrder text).map OrderEntry.written = orderFields text := by
  have hwritten : OrderEntry.written ∘ OrderEntry.parse = id := funext OrderEntry.written_parse
  rw [parseOrder_eq, List.map_map, hwritten, List.map_id]

/-- **Ordering texts are read without loss**: a field is what its entry is written as, the entries
of a text are read back from what they are written as, and texts with a comma between them have the
entries of both. -/
theorem parseOrder_lossless :
    (∀ field, (OrderEntry.parse field).written = field) ∧
      (∀ text, parseOrder (writtenOrder (parseOrder text)) = parseOrder text) ∧
      ∀ text rest, parseOrder (text ++ ',' :: rest) = parseOrder text ++ parseOrder rest := by
  refine ⟨OrderEntry.written_parse, fun text => ?_, fun text rest => ?_⟩
  · have hfields : orderFields (writtenOrder (parseOrder text)) = orderFields text := by
      rw [writtenOrder, map_written_parseOrder]
      exact orderFields_join fun field hm => orderField_of_mem hm
    rw [parseOrder_eq, hfields, ← parseOrder_eq]
  · rw [parseOrder_eq, orderFields_append_comma, List.map_append]
    rfl

example : (parseOrder "\u00a0--x. ,,-, é.-b\t".toList).map OrderEntry.segments =
    [["-x", "", "DESC"], ["", "DESC"], ["é", "-b", "ASC"]] := by
  decide

/-! ### Entries without a path -/

/-- Just a dash is left when a path is empty. -/
lemma OrderEntry.pathText_parse_eq_nil_iff {field : List Char} (hne : field ≠ []) :
    (parse field).pathText = [] ↔ field = ['-'] := by
  rcases exists_dash_or_head field with ⟨rest, rfl⟩ | h
  · rw [parse_dash, pathText, join_dottedPath]
    simp
  · rw [parse_of_head h, pathText, join_dottedPath]
    refine iff_of_false hne ?_
    rintro rfl
    exact h rfl

/-- The entries with an empty path are those of the parts that are a dash and nothing else. -/
lemma filter_pathText_parseOrder (text : List Char) :
    (parseOrder text).filter (·.pathText = [])
      = List.replicate (((split ',' text).map trim).count ['-']) ⟨[""], .descending⟩ := by
  have hfilter : (orderFields text).filter (fun field => (OrderEntry.parse field).pathText = [])
      = (orderFields text).filter (· = ['-']) := by
    refine List.filter_congr fun field hm => decide_eq_decide.mpr ?_
    exact OrderEntry.pathText_parse_eq_nil_iff (orderField_of_mem hm).ne_nil
  have hcount : (orderFields text).count ['-'] = ((split ',' text).map trim).count ['-'] :=
    List.count_filter rfl
  calc (parseOrder text).filter (·.pathText = [])
      = ((orderFields text).filter fun field => (OrderEntry.parse field).pathText = []).map
          OrderEntry.parse := by
        rw [parseOrder_eq, List.filter_map]
        rfl
    _ = (List.replicate ((orderFields text).count ['-']) ['-']).map OrderEntry.parse := by
        rw [hfilter, List.filter_eq]
    _ = List.replicate (((split ',' text).map trim).count ['-']) ⟨[""], .descending⟩ := by
        rw [List.map_replicate, hcount]
        rfl

/-- **Entries name a field** unless a part of the text is a dash and nothing else: so many parts of
that kind, so many entries with an empty path. -/
theorem forall_pathText_ne_nil_iff (text : List Char) :
    ((∀ entry ∈ parseOrder text, entry.pathText ≠ []) ↔
        ∀ part ∈ split ',' text, trim part ≠ ['-']) ∧
      (parseOrder text).filter (·.pathText = [])
        = List.replicate (((split ',' text).map trim).count ['-']) ⟨[""], .descending⟩ := by
  refine ⟨?_, filter_pathText_parseOrder text⟩
  calc (∀ entry ∈ parseOrder text, entry.pathText ≠ [])
      ↔ (parseOrder text).filter (·.pathText = []) = [] := by simp [List.filter_eq_nil_iff]
    _ ↔ ((split ',' text).map trim).count ['-'] = 0 := by
        rw [filter_pathText_parseOrder, List.replicate_eq_nil_iff]
    _ ↔ ∀ part ∈ split ',' text, trim part ≠ ['-'] := by
        rw [List.count_eq_zero, List.mem_map]
        simp

/-- A dash alone is read as an entry that names no field. -/
theorem exists_empty_pathText : ∃ entry ∈ parseOrder "-".toList, entry.pathText = [] :=
  ⟨⟨[""], .descending⟩, by decide, by decide⟩

end FieldSelection
