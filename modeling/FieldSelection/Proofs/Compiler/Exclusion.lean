import FieldSelection.Proofs.Level.Fields
import FieldSelection.Proofs.Level.Reach

/-!
Exclusions.

A field that is excluded is left out, whatever else is said about it; only keys mode puts
the keys back. A relation that is excluded is left out of the walk of everything. Without
a shape there is no walk: there `all` follows every association that is not listed, and an
exclusion has nothing to leave out.

* `Excludes`, `classify_eq_except_iff`: how exclusions are written.
* `selects_of_except`: whether an excluded field is selected.
* `include?_of_except`: a relation that is excluded and not named is not listed.
* `child?_of_except`: whether it is followed.
-/

namespace FieldSelection

open FieldSelection.Selection FieldSelection.Text

/-! ### How exclusions are written -/

/-- A word that excludes a name, as `-name` or as `-name=value`; blanks around the name do
not count. -/
def Excludes (word : List Char) (name : String) : Prop :=
  ∃ text rest, word = '-' :: (text ++ rest) ∧ '=' ∉ text ∧
    (rest = [] ∨ ∃ value, rest = '=' :: value) ∧ String.ofList (trim text) = name

/-- The words that are read as exclusions. -/
lemma classify_eq_except_iff {word : List Char} {name : String} :
    classify word = .except name ↔ Excludes word name := by
  constructor
  · intro h
    unfold classify at h
    split at h
    · cases h
    · split at h
      · next text _ =>
        refine ⟨text.takeWhile (· != '='), text.dropWhile (· != '='), ?_, ?_, ?_, ?_⟩
        · rw [List.takeWhile_append_dropWhile]
        · intro hmem
          simpa using List.mem_takeWhile_imp hmem
        · cases hrest : text.dropWhile (· != '=') with
          | nil => exact Or.inl rfl
          | cons c value =>
              have hc := List.head?_dropWhile_not (· != '=') text
              rw [hrest] at hc
              exact Or.inr ⟨value, by simpa using hc⟩
        · simpa using h
      · split at h <;> cases h
  · rintro ⟨text, rest, rfl, htext, hrest, rfl⟩
    have htake : (text ++ rest).takeWhile (· != '=') = text := by
      rw [List.takeWhile_append_of_pos (by
        intro c hc
        simpa using ne_of_mem_of_not_mem hc htext)]
      rcases hrest with rfl | ⟨value, rfl⟩ <;> simp
    rw [classify_minus, htake]

/-! ### Excluded fields -/

namespace Place

variable {options : CompileOptions} {query : Query} {room : Nat} {place : Place}
  {tokens : List Token} {name : String}

/-- Of the excluded fields, keys mode puts the keys back. -/
lemma mem_attributes_of_except (hexcept : .except name ∈ tokens)
    (hfield : place.hasField name = true) :
    name ∈ (place.compiled options query room tokens).attributes
      ↔ options.includeKeys = true ∧ place.isKey name = true := by
  rw [compiled_eq_level]
  exact mem_attributes?_of_mem_excluded (mem_excluded_asked.mpr ⟨hexcept, hfield⟩)

/-- What is not put back stays excluded. -/
lemma mem_excluded_of_except (hexcept : .except name ∈ tokens)
    (hfield : place.hasField name = true) :
    name ∈ (place.compiled options query room tokens).excluded
      ↔ name ∉ (place.compiled options query room tokens).attributes := by
  have hasked : name ∈ (place.asked options.includeKeys tokens).excluded :=
    mem_excluded_asked.mpr ⟨hexcept, hfield⟩
  rw [compiled_eq_level]
  simp [level, hasked]

end Place

/-- Whatever is either an attribute or excluded is selected as an attribute. -/
lemma Descriptor.selects_iff_of_excluded {level : Descriptor} {name : String}
    (h : name ∈ level.excluded ↔ name ∉ level.attributes) :
    level.selects name = true ↔ name ∈ level.attributes := by
  by_cases hmem : name ∈ level.attributes <;> simp [selects, h, hmem]

/-- **Excluded fields.** A field that a word of a level excludes is selected only in keys
mode and only if it is a key: then it is an attribute of the level, and else it is
excluded there. Other words of the level do not matter. -/
theorem selects_of_except {compiler : Compiler} {query : Query} {path : List String}
    {level : Descriptor} (hlevel : (compiler.compile query).Reaches path level) :
    ∃ place, compiler.root.follow? path = some place ∧
      ∀ word name, Excludes word name → classify word ∈ tokensAt path (compiler.tokens query) →
        place.hasField name = true →
          let back := compiler.options.includeKeys = true ∧ place.isKey name = true
          (level.selects name = true ↔ back) ∧ (name ∈ level.attributes ↔ back) ∧
            (name ∈ level.excluded ↔ ¬ back) := by
  obtain ⟨place, room, hplace, hbare⟩ := reaches_compile hlevel
  refine ⟨place, hplace, fun word name hword hmem hfield => ?_⟩
  rw [classify_eq_except_iff.mpr hword] at hmem
  have hback : name ∈ level.bare.attributes
      ↔ compiler.options.includeKeys = true ∧ place.isKey name = true := by
    rw [hbare]
    exact Place.mem_attributes_of_except hmem hfield
  have hexcluded : name ∈ level.bare.excluded ↔ name ∉ level.bare.attributes := by
    rw [hbare]
    exact Place.mem_excluded_of_except hmem hfield
  refine ⟨?_, hback, ?_⟩
  · exact (Descriptor.selects_iff_of_excluded hexcluded).trans hback
  · exact hexcluded.trans (not_congr hback)

/-- The shape of people who write letters. -/
def writerShape : Shape :=
  [("id", .field (some .primary)), ("name", .field none)]

/-- A compiler for letters in keys mode. -/
def letters : Compiler where
  shape := some [("subject", .field none), ("writer", .one writerShape)]
  options := { includeKeys := true }

/-- Of what two bodies exclude, the key of a writer comes back and the name does not,
although both are asked for. -/
theorem selects_of_except_letters :
    ∃ level,
      (letters.compile { fields := some "writer(-id=3,all),writer(id,- name,name=x)" }).Reaches
          ["writer"] level ∧
        (level.selects "id" = true ∧ "id" ∈ level.attributes ∧ "id" ∉ level.excluded) ∧
        (level.selects "name" = false ∧ "name" ∉ level.attributes ∧ "name" ∈ level.excluded) := by
  have hsome : ((letters.compile
      { fields := some "writer(-id=3,all),writer(id,- name,name=x)" }).at? ["writer"]).isSome := by
    decide
  obtain ⟨level, hlevel⟩ := Option.isSome_iff_exists.mp hsome
  have htokens : tokensAt ["writer"]
        (letters.tokens { fields := some "writer(-id=3,all),writer(id,- name,name=x)" })
      = [.except "id", .all, .field "id", .except "name", .filter "name" "x"] := by decide
  have hwriter : letters.root.follow? ["writer"] = some ⟨some writerShape, none, "writer"⟩ := rfl
  obtain ⟨place, hplace, hexcept⟩ := selects_of_except (.of_at? hlevel)
  obtain rfl := Option.some.inj (hwriter.symm.trans hplace)
  rw [htokens] at hexcept
  have hid := hexcept "-id=3".toList "id" (classify_eq_except_iff.mp (by decide)) (by decide)
    (by decide)
  have hkey : letters.options.includeKeys = true ∧
      Place.isKey ⟨some writerShape, none, "writer"⟩ "id" = true := by decide
  have hname := hexcept "- name".toList "name" (classify_eq_except_iff.mp (by decide)) (by decide)
    (by decide)
  have hplain : ¬ (letters.options.includeKeys = true ∧
      Place.isKey ⟨some writerShape, none, "writer"⟩ "name" = true) := by decide
  refine ⟨level, .of_at? hlevel, ⟨hid.1.mpr hkey, hid.2.1.mpr hkey, ?_⟩, ?_⟩
  · intro hmem
    exact hid.2.2.mp hmem hkey
  · exact ⟨eq_false_of_ne_true (mt hname.1.mp hplain), mt hname.2.1.mp hplain,
      hname.2.2.mpr hplain⟩

/-! ### Excluded relations -/

/-- A relation that is excluded and not named is not listed, whatever else the tokens
ask for. -/
lemma include?_of_except {options : CompileOptions} {query : Query} {room : Nat}
    {place : Place} {tokens : List Token} {name : String} (hexcept : .except name ∈ tokens)
    (hfield : place.hasField name = false) (hrelation : (place.enter? name).isSome)
    (hnamed : ∀ body, .relation name body ∉ tokens) :
    (place.compiled options query room tokens).include? name = none := by
  have hunwanted : name ∈ place.unwantedRelations tokens :=
    Place.mem_unwantedRelations.mpr ⟨hexcept, hfield, hrelation⟩
  cases hchild : (place.compiled options query room tokens).include? name with
  | none => rfl
  | some child =>
      obtain ⟨next, room', -, hreason, -⟩ := include?_compiled hchild
      rcases hreason with hmem | hmem
      · obtain ⟨body, hbody⟩ := mem_relationNames.mp hmem
        exact absurd hbody (hnamed body)
      · exact absurd hunwanted (Place.notMem_of_mem_unnamed hmem).2

/-- **Excluded relations.** A relation that is excluded at a level and not named there is
followed only where there is no shape and `all` is asked for; there every association
is followed in full. -/
theorem child?_of_except {compiler : Compiler} {query : Query} {path : List String}
    {level : Descriptor} {place : Place} {name : String}
    (hlevel : (compiler.compile query).at? path = some level)
    (hplace : compiler.root.follow? path = some place)
    (hexcept : .except name ∈ tokensAt path (compiler.tokens query))
    (hfield : place.hasField name = false) (hrelation : (place.enter? name).isSome)
    (hnamed : ∀ body, .relation name body ∉ tokensAt path (compiler.tokens query)) :
    level.child? name =
      if place.shape = none ∧ .all ∈ tokensAt path (compiler.tokens query)
      then some .everything else none := by
  obtain ⟨other, room, hother, hbare⟩ := at?_compile hlevel
  obtain rfl : place = other := Option.some.inj (hplace.symm.trans hother)
  rw [← Descriptor.child?_bare, hbare, Descriptor.child?,
    include?_of_except hexcept hfield hrelation hnamed]
  simp only [includeAll_compiled, Bool.and_eq_true, decide_eq_true_eq, Option.isNone_iff_eq_none,
    and_comm]

/-- Articles, whose authors lead back to them. -/
def articleView : ModelView where
  registry := ⟨[⟨"article", [⟨"title", none⟩], [⟨"author", "author", .one⟩]⟩,
    ⟨"author", [⟨"name", none⟩], [⟨"articles", "article", .many⟩]⟩]⟩
  model := ⟨"article", [⟨"title", none⟩], [⟨"author", "author", .one⟩]⟩

/-- A compiler for articles by their shape and their model. -/
def articles : Compiler where
  shape := some [("title", .field none), ("author", .one [("name", .field none),
    ("articles", .many [("title", .field none)])])]
  schema := some articleView

/-- With a shape, the articles of an author are left out of everything about the
author. -/
theorem child?_of_except_articles :
    ∃ level, (articles.compile { fields := some "title,author(all,-articles)" }).at? ["author"]
        = some level ∧ level.child? "articles" = none := by
  have hsome : ((articles.compile { fields := some "title,author(all,-articles)" }).at?
      ["author"]).isSome := by decide
  obtain ⟨level, hlevel⟩ := Option.isSome_iff_exists.mp hsome
  have htokens : tokensAt ["author"]
        (articles.tokens { fields := some "title,author(all,-articles)" })
      = [.all, .except "articles"] := by decide
  have hexcept : Token.except "articles" ∈ tokensAt ["author"]
      (articles.tokens { fields := some "title,author(all,-articles)" }) := by
    rw [htokens]
    decide
  exact ⟨level, hlevel,
    child?_of_except hlevel rfl hexcept (by decide) (by decide) (by rw [htokens]; simp)⟩

/-- Without a shape, the author of an article is followed although excluded. -/
theorem except_author_followed :
    Token.except "author" ∈ Compiler.tokens ⟨none, some articleView, {}⟩
        { fields := some "all,-author" } ∧
      Place.hasField ⟨none, some articleView, ""⟩ "author" = false ∧
      (Place.enter? ⟨none, some articleView, ""⟩ "author").isSome ∧
      (∀ body, Token.relation "author" body ∉ Compiler.tokens ⟨none, some articleView, {}⟩
        { fields := some "all,-author" }) ∧
      (Compiler.compile ⟨none, some articleView, {}⟩ { fields := some "all,-author" }).child?
        "author" = some .everything := by
  have htokens : Compiler.tokens ⟨none, some articleView, {}⟩ { fields := some "all,-author" }
      = [.all, .except "author"] := by decide
  rw [htokens]
  exact ⟨by decide, by decide, by decide, by simp, rfl⟩

end FieldSelection
