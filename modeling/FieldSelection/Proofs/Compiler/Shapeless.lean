import FieldSelection.Proofs.Compiler.Containment
import FieldSelection.Proofs.Level.Answers
import FieldSelection.Proofs.Projection.Agreement

/-!
Selections that are compiled without a shape.

Without a shape there is nothing to list fields and relations from. So `all` and exclusions
stay what they are: a level has every field that is not excluded, and it follows every
relation that is not listed. As long as the shape has nothing to object to the selection,
projections do not tell this from the lists that the shape makes of it.

* `Place.ExcludesFields`: tokens that exclude no relation, at their level and below it.
* `Place.asked_shapeless`: quiet tokens ask for the same with and without the shape.
* `Place.agree_shapeless`: so the descriptors agree on the shape, by induction on the room;
  behind a relation that `all` adds, everything is what `all` asks for.
* `project_compile_shapeless`: projections of whole selections.
-/

namespace FieldSelection

open FieldSelection.Selection

namespace Place

/-! ### Exclusions of fields -/

/-- Tokens that exclude no relation of their level, and so at every level below. -/
def ExcludesFields (place : Place) (tokens : List Token) : Prop :=
  ∀ path next name, place.follow? path = some next → .except name ∈ tokensAt path tokens →
    name ∉ next.relations

lemma ExcludesFields.here {place : Place} {tokens : List Token}
    (h : place.ExcludesFields tokens) {name : String} (hname : .except name ∈ tokens) :
    name ∉ place.relations :=
  h [] place name rfl hname

lemma ExcludesFields.below {place next : Place} {tokens : List Token} {name : String}
    (h : place.ExcludesFields tokens) (hnext : place.enter? name = some next) :
    next.ExcludesFields (tokensBelow name tokens) := by
  intro path other excluded hother hexcept
  refine h (name :: path) other excluded ?_ hexcept
  rw [follow?, hnext]
  exact hother

/-- A token `all` excludes nothing, at no level. -/
lemma excludesFields_all (place : Place) : place.ExcludesFields [.all] := by
  have hall : ∀ path, tokensAt path [.all] = [.all] := by
    intro path
    induction path with
    | nil => rfl
    | cons name path ih => exact ih
  intro path next name _ hexcept
  rw [hall path] at hexcept
  cases List.mem_singleton.mp hexcept

/-- Tokens exclude no relation if they exclude none of their level and their bodies exclude
none. -/
lemma excludesFields_iff {place : Place} {tokens : List Token} :
    place.ExcludesFields tokens ↔
      (∀ name, .except name ∈ tokens → name ∉ place.relations) ∧
        ∀ name ∈ relationNames tokens, ∀ next, place.enter? name = some next →
          next.ExcludesFields (bodyTokens name tokens) := by
  constructor
  · intro h
    refine ⟨fun name hname => h.here hname, fun name hnamed next hnext => ?_⟩
    have hbelow := h.below hnext
    rwa [tokensBelow, if_pos hnamed] at hbelow
  · rintro ⟨hhere, hbelow⟩ path next name hnext hexcept
    cases path with
    | nil =>
        cases hnext
        exact hhere name hexcept
    | cons relation path =>
        obtain ⟨mid, hmid, hnext⟩ := Option.bind_eq_some_iff.mp hnext
        rw [tokensAt, tokensBelow] at hexcept
        split at hexcept
        · next hnamed => exact hbelow relation hnamed mid hmid path next name hnext hexcept
        · exact excludesFields_all mid path next name hnext hexcept

section Level

variable {shape : Shape} {path name : String} {tokens : List Token}

/-- Without a shape every name is a field that is a name at all. -/
lemma hasField_shapeless (h : Place.hasField ⟨some shape, none, path⟩ name = true) :
    Place.hasField ⟨none, none, path⟩ name = true := by
  simp only [hasField, Bool.and_eq_true] at h
  simpa [hasField, shapeHasField, schemaHasField] using h.1.1

/-- A name that is excluded is a field, if nothing is noted about it and it is no relation. -/
lemma hasField_of_except
    (hcause : Place.tokenCause? ⟨some shape, none, path⟩ false (.except name) = none)
    (hrelation : name ∉ Entries.keys shape.relations) :
    Place.hasField ⟨some shape, none, path⟩ name = true := by
  by_contra hfield
  cases hnext : Place.enter? ⟨some shape, none, path⟩ name with
  | none => simp [tokenCause?, hfield, hnext] at hcause
  | some next =>
      obtain ⟨sub, hsub, -⟩ := behind?_of_enter? rfl hnext
      exact hrelation (Shape.mem_keys_relations_of_behind? hsub)

/-- A token adds the same to a request without the shape, if nothing is noted about it and it
excludes no relation. -/
lemma take_shapeless (request : Request) {token : Token}
    (hcause : Place.tokenCause? ⟨some shape, none, path⟩ false token = none)
    (hexcept : ∀ name, token = .except name → name ∉ Entries.keys shape.relations) :
    request.take ⟨some shape, none, path⟩ false token
      = request.take ⟨none, none, path⟩ false token := by
  cases token with
  | all => rfl
  | field name =>
      have hfield : Place.hasField ⟨some shape, none, path⟩ name = true := by
        by_contra hfield
        simp [tokenCause?, hfield] at hcause
      simp [Request.take, Request.add, hfield, hasField_shapeless hfield]
  | except name =>
      have hfield := hasField_of_except hcause (hexcept name rfl)
      simp [Request.take, Request.add, hfield, hasField_shapeless hfield]
  | filter name value =>
      by_cases hfield : Place.hasField ⟨some shape, none, path⟩ name <;>
        simp [tokenCause?, hfield] at hcause
  | relation name body => rfl

/-- **Quiet tokens ask for the same** without the shape. -/
lemma asked_shapeless
    (hquiet : ∀ token ∈ tokens, Place.tokenCause? ⟨some shape, none, path⟩ false token = none)
    (hexcept : Place.ExcludesFields ⟨some shape, none, path⟩ tokens) :
    Place.asked ⟨some shape, none, path⟩ false tokens
      = Place.asked ⟨none, none, path⟩ false tokens := by
  refine List.foldl_ext _ _ _ fun request token htoken => ?_
  refine take_shapeless request (hquiet token htoken) ?_
  rintro name rfl
  exact hexcept.here htoken

/-- A relation that is not named is one that a token `all` adds. -/
lemma mem_unnamed_of_all
    (hexcept : Place.ExcludesFields ⟨some shape, none, path⟩ tokens) (hall : .all ∈ tokens)
    (hname : name ∈ Entries.keys shape.relations) (hnamed : name ∉ relationNames tokens) :
    name ∈ Place.unnamed ⟨some shape, none, path⟩ tokens := by
  have hunwanted : name ∉ Place.unwantedRelations ⟨some shape, none, path⟩ tokens := by
    intro hmem
    exact hexcept.here (mem_unwantedRelations.mp hmem).1 hname
  rw [unnamed, if_pos hall]
  exact List.mem_filter.mpr ⟨hname, by simp [hnamed, hunwanted]⟩

end Level

/-! ### Levels -/

section Agree

variable (options : CompileOptions) (query : Query)

/-- Without a shape `all` selects every field and follows every relation in full. -/
lemma compiled_all_shapeless (room : Nat) (path name : String) :
    (Place.compiled options query room ⟨none, none, path⟩ [.all]).selects name
        = Descriptor.everything.selects name ∧
      (Place.compiled options query room ⟨none, none, path⟩ [.all]).child? name
        = Descriptor.everything.child? name := by
  cases room with
  | zero => exact ⟨rfl, rfl⟩
  | succ room => exact ⟨rfl, rfl⟩

variable {shape : Shape} {path : String} {tokens : List Token} {room : Nat}

/-- With and without the shape, a level selects the same fields of the shape. -/
lemma selects_shapeless (hkeys : options.includeKeys = false)
    (hquiet : ∀ token ∈ tokens, Place.tokenCause? ⟨some shape, none, path⟩ false token = none)
    (hexcept : Place.ExcludesFields ⟨some shape, none, path⟩ tokens) {name : String}
    (hname : name ∈ Entries.keys shape.fields) :
    (Place.compiled options query room ⟨some shape, none, path⟩ tokens).selects name
      = (Place.compiled options query room ⟨none, none, path⟩ tokens).selects name := by
  rw [selects_compiled options query hkeys, selects_compiled options query hkeys,
    asked_shapeless hquiet hexcept]
  have hlisted : name ∈ (Entries.keys shape.fields).filter
      (Place.schemaHasField ⟨some shape, none, path⟩) := List.mem_filter.mpr ⟨hname, rfl⟩
  simp [fields?, hlisted]

lemma enter?_shapeless {name : String} (hname : name ≠ "") (path : String) :
    Place.enter? ⟨none, none, path⟩ name = some ⟨none, none, joinPath path name⟩ :=
  enter?_eq_some_iff.mpr ⟨hname, rfl, rfl, rfl⟩

/-- Without room a relation of the shape is not followed at all, with the shape or without: a
token `all` would have added it, and that would have been noted. -/
lemma child?_zero_shapeless {name : String} (hname : name ∈ Entries.keys shape.relations)
    (hquiet : Quiet false 0 ⟨some shape, none, path⟩ tokens)
    (hexcept : Place.ExcludesFields ⟨some shape, none, path⟩ tokens) :
    (Place.compiled options query 0 ⟨some shape, none, path⟩ tokens).child? name = none ∧
      (Place.compiled options query 0 ⟨none, none, path⟩ tokens).child? name = none := by
  obtain ⟨-, hnamed, hunnamed⟩ := hquiet
  have hall : .all ∉ tokens := by
    intro hall
    have hmem := mem_unnamed_of_all hexcept hall hname (by simp [hnamed])
    rw [hunnamed] at hmem
    cases hmem
  rw [child?_compiled_zero, child?_compiled_zero]
  simp [hall]

/-- With room a relation of the shape is followed with descriptors that agree, if those agree
that are listed for it with and without the shape. Where only the shape lists it, `all` was
asked for, and everything is what `all` selects behind it. -/
lemma rel_child?_shapeless {name : String} {sub : Shape} (hname : name ≠ "")
    (hsub : shape.behind? name = some sub)
    (hexcept : Place.ExcludesFields ⟨some shape, none, path⟩ tokens)
    (hbelow : name ∈ relationNames tokens ∨
        name ∈ Place.unnamed ⟨some shape, none, path⟩ tokens →
      Shape.Agree
        (Place.compiled options query room ⟨some sub, none, joinPath path name⟩
          (tokensBelow name tokens))
        (Place.compiled options query room ⟨none, none, joinPath path name⟩
          (tokensBelow name tokens)) sub) :
    Option.Rel (fun child other => Shape.Agree child other sub)
      ((Place.compiled options query (room + 1) ⟨some shape, none, path⟩ tokens).child? name)
      ((Place.compiled options query (room + 1) ⟨none, none, path⟩ tokens).child? name) := by
  have hrelation := Shape.mem_keys_relations_of_behind? hsub
  have hopen : Place.unnamed ⟨none, none, path⟩ tokens = [] := by simp [unnamed, relations]
  rw [child?_compiled_succ options query (enter?_of_behind? hname hsub path),
    child?_compiled_succ options query (enter?_shapeless hname path), hopen]
  by_cases hnamed : name ∈ relationNames tokens
  · -- its bodies are compiled on both sides
    rw [if_pos (Or.inl hnamed), if_pos (Or.inl hnamed)]
    exact .some ((hbelow (Or.inl hnamed)).congr (fun _ => rfl) (fun _ => rfl) (fun _ => rfl)
      fun _ => rfl)
  · by_cases hall : .all ∈ tokens
    · -- the shape lists it for `all`; without the shape it is followed in full
      have hunnamed := mem_unnamed_of_all hexcept hall hrelation hnamed
      have htokens : tokensBelow name tokens = [.all] := if_neg hnamed
      rw [if_pos (Or.inr hunnamed), if_neg (by simp [hnamed]), if_pos ⟨hall, rfl⟩]
      refine .some ((hbelow (Or.inr hunnamed)).congr (fun _ => rfl) (fun _ => rfl)
        (fun other => ?_) fun other => ?_)
      · rw [htokens, (compiled_all_shapeless options query room _ other).1]
      · rw [htokens, (compiled_all_shapeless options query room _ other).2]
    · have hunnamed : Place.unnamed ⟨some shape, none, path⟩ tokens = [] := if_neg hall
      simp [hnamed, hall, hunnamed]

/-- Levels agree with and without the shape, if every relation of the shape is followed with
descriptors that agree. -/
lemma agree_of_relations (hkeys : options.includeKeys = false)
    (hquiet : ∀ token ∈ tokens, Place.tokenCause? ⟨some shape, none, path⟩ false token = none)
    (hexcept : Place.ExcludesFields ⟨some shape, none, path⟩ tokens)
    (hrelations : ∀ entry ∈ shape, ∀ sub, Node.shape? entry.2 = some sub →
      Option.Rel (fun child other => Shape.Agree child other sub)
        ((Place.compiled options query room ⟨some shape, none, path⟩ tokens).child? entry.1)
        ((Place.compiled options query room ⟨none, none, path⟩ tokens).child? entry.1)) :
    Shape.Agree (Place.compiled options query room ⟨some shape, none, path⟩ tokens)
      (Place.compiled options query room ⟨none, none, path⟩ tokens) shape := by
  refine Shape.agree_iff.mpr fun (name, node) hm => ?_
  cases node with
  | field role =>
      exact selects_shapeless options query hkeys hquiet hexcept
        (Shape.mem_keys_fields.mpr ⟨role, hm⟩)
  | one sub => exact hrelations (name, .one sub) hm sub rfl
  | many sub => exact hrelations (name, .many sub) hm sub rfl

/-- **Levels agree** with and without the shape, and all levels below them, by induction on the
room: the tokens of a level that is listed are quiet again and exclude fields only. -/
lemma agree_shapeless (hkeys : options.includeKeys = false) (hd : shape.Distinct)
    (hnames : shape.Everywhere fun level => "" ∉ Entries.keys level.relations)
    (hquiet : Quiet false room ⟨some shape, none, path⟩ tokens)
    (hexcept : Place.ExcludesFields ⟨some shape, none, path⟩ tokens) :
    Shape.Agree (Place.compiled options query room ⟨some shape, none, path⟩ tokens)
      (Place.compiled options query room ⟨none, none, path⟩ tokens) shape := by
  induction room generalizing shape path tokens with
  | zero =>
      refine agree_of_relations options query hkeys hquiet.here hexcept
        fun (name, node) hm sub hs => ?_
      have hsub := Shape.behind?_of_mem hd.here hm hs
      obtain ⟨hnone, hnone'⟩ := child?_zero_shapeless options query
        (Shape.mem_keys_relations_of_behind? hsub) hquiet hexcept
      rw [hnone, hnone']
      exact .none
  | succ room ih =>
      refine agree_of_relations options query hkeys hquiet.here hexcept
        fun (name, node) hm sub hs => ?_
      have hsub := Shape.behind?_of_mem hd.here hm hs
      have hname : name ≠ "" := by
        rintro rfl
        exact hnames.here (Shape.mem_keys_relations_of_behind? hsub)
      have hnext := enter?_of_behind? hname hsub path
      exact rel_child?_shapeless options query hname hsub hexcept fun hreason =>
        ih (hd.behind hm hs) (hnames.behind hm hs) (hquiet.below hnext hreason)
          (hexcept.below hnext)

end Agree

end Place

/-! ### Whole selections -/

/-- Descriptors agree on a shape if one was compiled with it and the other one without, from a
selection that nothing is noted about. -/
lemma agree_compile_shapeless {shape : Shape} (hd : shape.Distinct)
    (hnames : shape.Everywhere fun level => "" ∉ Entries.keys level.relations)
    {options : CompileOptions} (hkeys : options.includeKeys = false) {query : Query}
    (hnotes : Compiler.notes ⟨some shape, none, options⟩ query = [])
    (hexcept : Place.ExcludesFields ⟨some shape, none, ""⟩
      (Compiler.tokens ⟨some shape, none, options⟩ query)) :
    Shape.Agree (Compiler.compile ⟨some shape, none, options⟩ query)
      (Compiler.compile ⟨none, none, options⟩ query) shape := by
  have hquiet := Compiler.quiet_of_notes hnotes
  rw [hkeys] at hquiet
  exact (Place.agree_shapeless options query hkeys hd hnames hquiet hexcept).congr
    (fun name => (Compiler.answers_compile _ query name).1)
    (fun name => (Compiler.answers_compile _ query name).2)
    (fun name => (Compiler.answers_compile _ query name).1)
    fun name => (Compiler.answers_compile _ query name).2

/-- **Compiling without the shape** makes no difference to projections: outside keys mode, if
nothing is noted about a selection and it excludes fields only, then data is projected in the
same way with the descriptor that was compiled against the shape and with the one that was
compiled against nothing. -/
theorem project_compile_shapeless {node : Node} (hn : node.Distinct)
    (hnames : ∀ shape, node.shape? = some shape →
      shape.Everywhere fun level => "" ∉ Entries.keys level.relations)
    {options : CompileOptions} (hkeys : options.includeKeys = false) {query : Query}
    (hnotes : Compiler.notes ⟨node.shape?, none, options⟩ query = [])
    (hexcept : Place.ExcludesFields ⟨node.shape?, none, ""⟩
      (Compiler.tokens ⟨node.shape?, none, options⟩ query))
    (data : Json) (mode : ProjectionMode) :
    project data node (Compiler.compile ⟨node.shape?, none, options⟩ query) mode
      = project data node (Compiler.compile ⟨none, none, options⟩ query) mode := by
  cases hshape : node.shape? with
  | none => rfl
  | some shape =>
      rw [hshape] at hnotes hexcept
      have hagree := agree_compile_shapeless (hn shape hshape) (hnames shape hshape) hkeys hnotes
        hexcept
      exact project_eq_of_agree (hagree.behind hshape) data mode

/-- Books with their authors, who have other books, and with tags. -/
def bookNode : Node :=
  .many [("id", .field (some .primary)), ("title", .field none), ("year", .field none),
    ("author", .one [("name", .field none), ("mail", .field none),
      ("books", .many [("title", .field none)])]),
    ("tags", .many [("label", .field none)])]

/-- Everything about books but their keys, and of their authors the names and the books. -/
def bookSelection : Query where
  fields := some "all,-id,author(-mail,books())"

/-- Two books, one without an author. -/
def bookData : Json :=
  .array [.object [("id", .string "1"), ("title", .string "Emma"),
      ("tags", .array [.object [("label", .string "old")]])],
    .object [("id", .string "2"), ("year", .string "1817"),
      ("author", .object [("name", .string "Jane"), ("mail", .string "j@a"),
        ("books", .array [.object [("title", .string "Emma")]])])]]

/-- The selection excludes a field of books and one of authors. -/
lemma excludesFields_bookSelection :
    Place.ExcludesFields ⟨bookNode.shape?, none, ""⟩
      (Compiler.tokens ⟨bookNode.shape?, none, {}⟩ bookSelection) := by
  have htokens : Compiler.tokens ⟨bookNode.shape?, none, {}⟩ bookSelection
      = [.all, .except "id", .relation "author" "-mail,books()"] := by decide
  have hauthor : bodyTokens "author" [.all, .except "id", .relation "author" "-mail,books()"]
      = [.except "mail", .relation "books" "all"] := by decide
  have hbooks : bodyTokens "books" [.except "mail", .relation "books" "all"] = [.all] := by decide
  rw [htokens, Place.excludesFields_iff]
  refine ⟨fun name hname => ?_, fun name hname next hnext => ?_⟩
  · obtain rfl : name = "id" := by simpa using hname
    decide
  · obtain rfl : name = "author" := List.mem_singleton.mp hname
    cases hnext
    rw [hauthor, Place.excludesFields_iff]
    refine ⟨fun name hname => ?_, fun name hname next hnext => ?_⟩
    · obtain rfl : name = "mail" := by simpa using hname
      decide
    · obtain rfl : name = "books" := List.mem_singleton.mp hname
      rw [hbooks]
      exact Place.excludesFields_all next

/-- Books are shown without their keys, and authors without their addresses. -/
theorem project_compile_shapeless_books :
    project bookData bookNode (Compiler.compile ⟨bookNode.shape?, none, {}⟩ bookSelection) .nested
        = project bookData bookNode (Compiler.compile {} bookSelection) .nested ∧
      project bookData bookNode (Compiler.compile {} bookSelection) .nested
        = some (.array [.object [("title", .string "Emma"),
              ("tags", .array [.object [("label", .string "old")]])],
            .object [("year", .string "1817"), ("author", .object [("name", .string "Jane"),
              ("books", .array [.object [("title", .string "Emma")]])])]]) :=
  ⟨project_compile_shapeless (by decide) (by decide) rfl (by decide)
    excludesFields_bookSelection bookData .nested, by decide +kernel⟩

end FieldSelection
