import FieldSelection.Proofs.Level.Equivalence

/-!
Saying things twice.

A relation that is named twice is one relation, with the bodies one after the other, and a
whole selection that is written twice is the selection. Both hold at every level, since the
bodies of a relation that is repeated are repeated themselves.

* `equivalent_merge`, `bodyTokens_merge`: two bodies of a relation and their tokens in one
  body ask for the same.
* `Place.exists_listed_relation`: a relation is listed once, where it was named first.
* `compile_merge`: two bodies are one body, joined by a comma.
* `compiled_append_self`: tokens that are repeated make the same level, by induction on the
  levels that may follow.
* `compile_twice`: a selection that is written twice is the selection.
-/

namespace FieldSelection

open FieldSelection.Selection FieldSelection.Text

/-! ### Two bodies of a relation -/

section Merge

variable {name first second both : String} {pre mid post : List Token}

/-- Two bodies of a relation, with nothing for the relation between them, have the tokens of
one body with all of their tokens. -/
lemma bodyTokens_merge (hmid : name ∉ relationNames mid)
    (hboth : Selection.tokens both.toList
      = Selection.tokens first.toList ++ Selection.tokens second.toList) (other : String) :
    bodyTokens other
        (pre ++ .relation name first :: (mid ++ .relation name second :: post))
      = bodyTokens other (pre ++ .relation name both :: (mid ++ post)) := by
  simp only [bodyTokens_append, bodyTokens_cons, hboth]
  by_cases h : name = other
  · subst h
    simp [bodyTokens_eq_nil hmid]
  · simp [h]

lemma relationNames_merge :
    relationNames (pre ++ .relation name first :: (mid ++ .relation name second :: post))
      = relationNames (pre ++ .relation name both :: (mid ++ post)) := by
  have hmem : name ∈ pre.filterMap relationName? ++ name :: mid.filterMap relationName? := by simp
  have hagain := distinctNames_append_cons hmem (post.filterMap relationName?)
  simpa [relationNames, relationName?] using hagain

/-- **Two bodies of a relation** ask for the same as one, at the level of the relation. -/
lemma equivalent_merge (place : Place) (keysMode : Bool) :
    place.Equivalent keysMode
      (pre ++ .relation name first :: (mid ++ .relation name second :: post))
      (pre ++ .relation name both :: (mid ++ post)) := by
  refine Place.Equivalent.of_besides ?_ ?_
  · simp [besidesRelations, relationName?]
  · rw [Place.named, Place.named, relationNames_merge]

/-- Where two bodies of a relation are one, the levels below are the same, so the level is. -/
lemma compiled_merge (options : CompileOptions) (query : Query) (room : Nat) (place : Place)
    (hmid : name ∉ relationNames mid)
    (hboth : Selection.tokens both.toList
      = Selection.tokens first.toList ++ Selection.tokens second.toList) :
    place.compiled options query room
        (pre ++ .relation name first :: (mid ++ .relation name second :: post))
      = place.compiled options query room (pre ++ .relation name both :: (mid ++ post)) :=
  (equivalent_merge place options.includeKeys).compiled_eq room fun room' _ other next _ => by
    rw [bodyTokens_merge hmid hboth]

end Merge

/-! ### The relations that a level lists -/

/-- A relation comes behind those that are named before it and ahead of all others. -/
lemma relationNames_append_relation {name : String} {pre : List Token}
    (h : name ∉ relationNames pre) (body : String) (post : List Token) :
    ∃ later, name ∉ later ∧
      relationNames (pre ++ .relation name body :: post) = relationNames pre ++ name :: later := by
  have hnames : (pre ++ .relation name body :: post).filterMap relationName?
      = pre.filterMap relationName? ++ [name] ++ post.filterMap relationName? := by
    simp [relationName?]
  refine ⟨(distinctNames (post.filterMap relationName?)).filter
    (· ∉ pre.filterMap relationName? ++ [name]), by simp, ?_⟩
  rw [relationNames, hnames, distinctNames_append, distinctNames_append_singleton,
    ← relationNames, insertName, if_neg h, List.append_assoc, List.singleton_append]

namespace Place

variable (options : CompileOptions) (query : Query) (place : Place)

lemma notMem_named {place : Place} {name : String} {tokens : List Token}
    (h : name ∉ relationNames tokens) : name ∉ place.named tokens :=
  mt List.mem_of_mem_filter h

/-- A relation is listed once: behind those that are named before it, and ahead of all
others. -/
lemma exists_listed_relation (room : Nat) {name : String} {pre : List Token}
    (h : name ∉ relationNames pre) (body : String) (post : List Token) :
    ∃ later, name ∉ place.named pre ++ later ∧
      (place.compiled options query (room + 1) (pre ++ .relation name body :: post)).includes.map
          (·.association)
        = (place.named pre ++ [name].filter (fun other => (place.enter? other).isSome)
            ++ later).map some := by
  obtain ⟨later, hlater, hnames⟩ := relationNames_append_relation h body post
  have hunnamed : name ∉ place.unnamed (pre ++ .relation name body :: post) := fun hname =>
    (notMem_of_mem_unnamed hname).1 (by rw [hnames]; simp)
  refine ⟨later.filter (fun name => (place.enter? name).isSome)
    ++ (place.unnamed (pre ++ .relation name body :: post)).filter
      fun name => (place.enter? name).isSome, ?_, ?_⟩
  · simp only [List.mem_append, not_or]
    exact ⟨notMem_named h, mt List.mem_of_mem_filter hlater, mt List.mem_of_mem_filter hunnamed⟩
  · rw [map_association_includes, named, hnames, ← List.singleton_append, List.filter_append,
      List.filter_append, ← named]
    simp only [List.append_assoc]

end Place

/-! ### Bodies in texts -/

namespace Selection

/-- The text of a relation with a body. -/
def relationText (name : String) (body : List Char) : List Char :=
  name.toList ++ '(' :: (body ++ [')'])

lemma tokens_relationText {name : String} {body : List Char}
    (htrim : trim name.toList = name.toList) (hcomma : ',' ∉ name.toList)
    (hopen : '(' ∉ name.toList) (hbody : Balanced body) :
    tokens (relationText name body) = [.relation name (bodyText body)] := by
  rw [relationText, tokens_relation hcomma hopen hbody, htrim, String.ofList_toList]

/-- A body of two bodies that are not blank has the tokens of both. -/
lemma tokens_bodyText_comma {first second : List Char} (hfirst : Balanced first)
    (hfirst' : ¬ IsBlank first) (hsecond' : ¬ IsBlank second) :
    tokens (bodyText (first ++ ',' :: second)).toList
      = tokens (bodyText first).toList ++ tokens (bodyText second).toList := by
  have hboth : ¬ IsBlank (first ++ ',' :: second) := by
    intro h
    have hcomma : ',' ∉ first ++ ',' :: second := h.notMem (by decide)
    simp at hcomma
  rw [tokens_bodyText, tokens_bodyText, tokens_bodyText, if_neg hfirst', if_neg hsecond',
    if_neg hboth, tokens_append_comma hfirst.closed]

end Selection

section Texts

variable {name : String} {body : List Char} {pre post : List (List Char)}

/-- Among texts, a relation with a body is one token. -/
lemma flatMap_tokens_relationText (htrim : trim name.toList = name.toList)
    (hcomma : ',' ∉ name.toList) (hopen : '(' ∉ name.toList) (hbody : Balanced body) :
    (pre ++ relationText name body :: post).flatMap Selection.tokens
      = pre.flatMap Selection.tokens
          ++ .relation name (bodyText body) :: post.flatMap Selection.tokens := by
  rw [List.flatMap_append, List.flatMap_cons, tokens_relationText htrim hcomma hopen hbody,
    List.singleton_append]

/-- Among texts that leave nothing open, a relation with a body leaves nothing open. -/
lemma forall_closed_relationText (hcomma : ',' ∉ name.toList) (hopen : '(' ∉ name.toList)
    (hbody : Balanced body) (hclosed : ∀ part ∈ pre ++ post, Closed part) :
    ∀ part ∈ pre ++ relationText name body :: post, Closed part := by
  intro part hpart
  rcases List.mem_append.mp hpart with hpart | hpart
  · exact hclosed part (List.mem_append_left _ hpart)
  · rcases List.mem_cons.mp hpart with rfl | hpart
    · exact closed_relation hcomma hopen hbody
    · exact hclosed part (List.mem_append_right _ hpart)

/-- Texts name the relations that one of them names. -/
lemma notMem_relationNames_flatMap {parts : List (List Char)}
    (h : ∀ part ∈ parts, name ∉ relationNames (Selection.tokens part)) :
    name ∉ relationNames (parts.flatMap Selection.tokens) := by
  intro hname
  obtain ⟨body, hbody⟩ := mem_relationNames.mp hname
  obtain ⟨part, hpart, htoken⟩ := List.mem_flatMap.mp hbody
  exact h part hpart (mem_relationNames.mpr ⟨body, htoken⟩)

end Texts

/-! ### Whole selections -/

namespace Compiler

/-- The descriptor of a query with another selection text. -/
def select (compiler : Compiler) (query : Query) (text : List Char) : Descriptor :=
  compiler.compile { query with fields := some (.ofList text) }

variable (compiler : Compiler) (query : Query)

/-- Selection texts whose tokens select the same make the same descriptor. -/
lemma select_congr {text text' : List Char}
    (h : compiler.root.compiled compiler.options query compiler.options.maxDepth
        (Selection.tokens text)
      = compiler.root.compiled compiler.options query compiler.options.maxDepth
        (Selection.tokens text')) :
    compiler.select query text = compiler.select query text' := by
  refine compiler.compile_fields query ?_
  simpa only [tokens, selection, Option.getD_some, String.toList_ofList] using h

lemma bare_select (text : List Char) :
    (compiler.select query text).bare
      = compiler.root.compiled compiler.options query compiler.options.maxDepth
          (Selection.tokens text) := by
  rw [select, bare_compile, Place.compiled_fields, tokens, selection, Option.getD_some,
    String.toList_ofList]

lemma includes_select (text : List Char) :
    (compiler.select query text).includes
      = (compiler.root.compiled compiler.options query compiler.options.maxDepth
          (Selection.tokens text)).includes := by
  rw [select, includes_compile, Place.compiled_fields, tokens, selection, Option.getD_some,
    String.toList_ofList]

end Compiler

/-- **Repeated relations merge**: a relation with two bodies is the relation with both in one.
It is listed once, where it was named first. -/
theorem compile_merge (compiler : Compiler) (query : Query) {name : String}
    {first second : List Char} {pre mid post : List (List Char)}
    (htrim : trim name.toList = name.toList) (hcomma : ',' ∉ name.toList)
    (hopen : '(' ∉ name.toList) (hfirst : Balanced first) (hsecond : Balanced second)
    (hfirst' : ¬ IsBlank first) (hsecond' : ¬ IsBlank second)
    (hclosed : ∀ part ∈ pre ++ mid ++ post, Closed part)
    (hother : ∀ part ∈ pre ++ mid, name ∉ relationNames (Selection.tokens part)) :
    compiler.select query
        (join ',' (pre ++ relationText name first :: (mid ++ relationText name second :: post)))
      = compiler.select query
        (join ',' (pre ++ relationText name (first ++ ',' :: second) :: (mid ++ post))) ∧
    ∃ later, name ∉ compiler.root.named (pre.flatMap Selection.tokens) ++ later ∧
      (compiler.select query
          (join ',' (pre ++ relationText name first ::
            (mid ++ relationText name second :: post)))).includes.map (·.association)
      = if compiler.options.maxDepth = 0 then []
        else (compiler.root.named (pre.flatMap Selection.tokens)
          ++ [name].filter (fun other => (compiler.root.enter? other).isSome) ++ later).map
            some := by
  have hboth : Balanced (first ++ ',' :: second) := by
    have hjoin : Balanced (join ',' [first, second]) := Balanced.join (by simp [hfirst, hsecond])
    simpa [join] using hjoin
  have hclosed' : ∀ part ∈ pre ++ (mid ++ relationText name second :: post), Closed part := by
    rw [← List.append_assoc]
    exact forall_closed_relationText hcomma hopen hsecond hclosed
  have hmid : name ∉ relationNames (mid.flatMap Selection.tokens) :=
    notMem_relationNames_flatMap fun part hpart => hother part (List.mem_append_right _ hpart)
  have hpre : name ∉ relationNames (pre.flatMap Selection.tokens) :=
    notMem_relationNames_flatMap fun part hpart => hother part (List.mem_append_left _ hpart)
  have htokens := (tokens_join (forall_closed_relationText hcomma hopen hfirst hclosed')).1
  rw [flatMap_tokens_relationText htrim hcomma hopen hfirst,
    flatMap_tokens_relationText htrim hcomma hopen hsecond] at htokens
  constructor
  · -- the tokens of both texts differ in the bodies of the relation only
    refine compiler.select_congr query ?_
    rw [List.append_assoc] at hclosed
    rw [htokens, (tokens_join (forall_closed_relationText hcomma hopen hboth hclosed)).1,
      flatMap_tokens_relationText htrim hcomma hopen hboth, List.flatMap_append]
    exact compiled_merge _ _ _ _ hmid (tokens_bodyText_comma hfirst hfirst' hsecond')
  · rw [compiler.includes_select, htokens]
    cases compiler.options.maxDepth with
    | zero => exact ⟨[], by simpa using Place.notMem_named hpre, rfl⟩
    | succ room =>
        simp only [Nat.add_eq_zero_iff, one_ne_zero, and_false, if_false]
        exact Place.exists_listed_relation _ _ _ room hpre _ _

/-- A compiler in keys mode for towns with libraries and their books. -/
def towns : Compiler where
  shape := some [("id", .field (some .primary)), ("mayor", .one [("name", .field none)]),
    ("books", .many [("id", .field (some .primary)), ("title", .field none),
      ("author", .one [("name", .field none), ("born", .field none)]),
      ("copies", .many [("shelf", .field none)])])]
  options := { includeKeys := true }

/-- Asks for books three times; only the first body asks for everything. -/
def repeatedBooks : List Char :=
  join ',' ["mayor(name)".toList, relationText "books" "author(name),all".toList, "-id".toList,
    relationText "books" "-title,author(-name)".toList, relationText "books" "id=3".toList]

/-- The first two bodies are one here. -/
def mergedBooks : List Char :=
  join ',' ["mayor(name)".toList,
    relationText "books" ("author(name),all".toList ++ ',' :: "-title,author(-name)".toList),
    "-id".toList, relationText "books" "id=3".toList]

/-- The authors behind the books are named in both bodies, so they are merged as well. -/
theorem compile_merge_towns :
    towns.select {} repeatedBooks = towns.select {} mergedBooks ∧
      (towns.select {} repeatedBooks).includes.map (·.association)
        = [some "mayor", some "books"] := by
  have h := @compile_merge towns {} "books" "author(name),all".toList "-title,author(-name)".toList
    ["mayor(name)".toList] ["-id".toList] [relationText "books" "id=3".toList] (by decide)
    (by decide) (by decide) (by decide) (by decide) (by decide) (by decide) (by decide) (by decide)
  exact ⟨h.1, by decide +kernel⟩

/-! ### Selections that are written twice -/

lemma relationNames_append_self (tokens : List Token) :
    relationNames (tokens ++ tokens) = relationNames tokens := by
  rw [relationNames, List.filterMap_append, distinctNames_append_self, ← relationNames]

/-- **Tokens that are repeated** ask for the same: names that are mentioned again add nothing,
and of the filters on a field the last one was the last one before. -/
lemma equivalent_append_self (place : Place) (keysMode : Bool) (tokens : List Token) :
    place.Equivalent keysMode (tokens ++ tokens) tokens where
  wanted := by rw [List.filterMap_append, distinctNames_append_self]
  unwanted := by rw [List.filterMap_append, distinctNames_append_self]
  unwantedRelations := by
    rw [Place.unwantedRelations, List.filterMap_append, distinctNames_append_self,
      ← Place.unwantedRelations]
  inline := by
    intro name
    rw [Place.inline?, List.filterMap_append, List.getLast?_append, Option.or_self,
      ← Place.inline?]
  all := by simp
  named := by rw [Place.named, relationNames_append_self, ← Place.named]

/-- Tokens that are repeated make the same level: the bodies of every relation are repeated. -/
lemma compiled_append_self (options : CompileOptions) (query : Query) (room : Nat) (place : Place)
    (tokens : List Token) :
    place.compiled options query room (tokens ++ tokens)
      = place.compiled options query room tokens := by
  induction room using Nat.strong_induction_on generalizing place tokens with
  | _ room ih =>
      refine (equivalent_append_self place options.includeKeys tokens).compiled_eq room
        fun room' hroom name next _ => ?_
      rw [bodyTokens_append, ih room' hroom]

/-- **Writing a selection twice** changes nothing. -/
theorem compile_twice (compiler : Compiler) (query : Query) {text : List Char} (h : Closed text) :
    compiler.select query (text ++ ',' :: text) = compiler.select query text := by
  refine compiler.select_congr query ?_
  rw [tokens_append_comma h]
  exact compiled_append_self _ _ _ _ _

/-- Everything at once: exclusions, a filter, a blank body, `all` behind a relation, and a
parenthesis that closes nothing. -/
def townText : List Char :=
  "mayor(-name),books(id=3,author(),all),x),-id,books(-title)".toList

/-- The filter on titles stands for those that the query has. -/
theorem compile_twice_towns :
    towns.select { filters := [("books.title", .string "x")] } (townText ++ ',' :: townText)
      = towns.select { filters := [("books.title", .string "x")] } townText :=
  compile_twice towns { filters := [("books.title", .string "x")] } (by decide)

end FieldSelection
