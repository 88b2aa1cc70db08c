import FieldSelection.Proofs.Selection.Issues

/-!
Written tokens are read back.

Tokens can be written as a text with commas between them, as long as nothing in their names, values
and bodies is taken for anything else. A scan of the text finds the tokens again.

* `FlatText`: texts without structure, as names and values have to be; `FlatText.append_cons` makes
  larger ones, and `FlatText.tokens_eq` reads one as a single word.
* `Token.Written`: how a token is written, and which tokens can be.
* `Token.Written.reads_back`: a written token is read back, and its parentheses match.
* `tokenize_join_written`: so it is with lists of tokens.
-/

namespace FieldSelection.Selection

open FieldSelection.Text

/-! ### Texts without structure -/

/-- **Flat texts**: there are no blanks at their ends, and no commas and parentheses in them. -/
structure FlatText (text : List Char) : Prop where
  trim_eq : trim text = text
  comma : ',' ∉ text
  opening : '(' ∉ text
  closing : ')' ∉ text

instance (text : List Char) : Decidable (FlatText text) :=
  decidable_of_iff (trim text = text ∧ ',' ∉ text ∧ '(' ∉ text ∧ ')' ∉ text)
    ⟨fun ⟨h1, h2, h3, h4⟩ => ⟨h1, h2, h3, h4⟩, fun ⟨h1, h2, h3, h4⟩ => ⟨h1, h2, h3, h4⟩⟩

namespace FlatText

variable {text left right : List Char} {c : Char}

lemma balanced (h : FlatText text) : Balanced text :=
  balanced_of_notMem h.opening h.closing

/-- A flat text is read as a single word. -/
lemma tokens_eq (h : FlatText text) (hne : text ≠ []) : tokens text = [classify text] := by
  rw [tokens_word h.comma h.opening (by rwa [h.trim_eq]), h.trim_eq]

/-- Flat texts with a further character between them are flat. -/
lemma append_cons (hleft : FlatText left) (hright : FlatText right)
    (hc : isBlank c = false ∧ c ≠ ',' ∧ c ≠ '(' ∧ c ≠ ')') : FlatText (left ++ c :: right) := by
  obtain ⟨hblank, hcomma, hopening, hclosing⟩ := hc
  have hnotMem : ∀ {d : Char}, d ∉ left → c ≠ d → d ∉ right → d ∉ left ++ c :: right :=
    fun hl hd hr => List.not_mem_append hl (List.not_mem_cons_of_ne_of_not_mem hd.symm hr)
  exact ⟨trim_append_cons hleft.trim_eq hright.trim_eq hblank,
    hnotMem hleft.comma hcomma hright.comma, hnotMem hleft.opening hopening hright.opening,
    hnotMem hleft.closing hclosing hright.closing⟩

end FlatText

lemma flatText_nil : FlatText [] := by
  decide

/-- Blanks have no case. -/
lemma toLower_of_isBlank {c : Char} (h : isBlank c = true) : c.toLower = c := by
  refine dif_neg ?_
  rintro ⟨hle, hge⟩
  have hlower : 65 ≤ c.toNat := hle
  have hupper : c.toNat ≤ 90 := hge
  simp [isBlank, blankRanges] at h
  omega

/-- The word `all` is flat in any case. -/
lemma flatText_of_isAll {word : List Char} (h : isAll word = true) : FlatText word where
  trim_eq := by
    have hblank : ∀ c ∈ word, isBlank c = false := by
      intro c hmem
      by_contra hc
      refine notMem_of_isAll h (fun hall => ?_) hmem
      have hletters : ∀ d ∈ ['a', 'l', 'l'], isBlank d = false := by
        simp [isBlank, blankRanges]
      rw [toLower_of_isBlank (by simpa using hc)] at hall
      exact hc (hletters c hall)
    exact trim_eq_self_of_forall hblank
  comma := notMem_of_isAll h (by decide)
  opening := notMem_of_isAll h (by decide)
  closing := notMem_of_isAll h (by decide)

/-! ### Written tokens -/

/-- **How a token is written**, if it can be read back. -/
inductive Token.Written : Token → List Char → Prop where
  /-- The word `all`, in any case. -/
  | all {word : List Char} (hall : word.map Char.toLower = "all".toList) : Written .all word
  /-- A name that means nothing else. -/
  | field {name : String} (hname : FlatText name.toList) (hne : name ≠ "")
      (hall : name.toList.map Char.toLower ≠ "all".toList)
      (hdash : name.toList.head? ≠ some '-') (hequals : name.toList.count '=' ≠ 1) :
      Written (.field name) name.toList
  /-- A dash and a name. -/
  | except {name : String} (hname : FlatText name.toList) (hequals : '=' ∉ name.toList) :
      Written (.except name) ('-' :: name.toList)
  /-- A name and a value, with `=` between them. -/
  | filter {name value : String} (hname : FlatText name.toList) (hvalue : FlatText value.toList)
      (hequals : '=' ∉ name.toList) (hequals' : '=' ∉ value.toList)
      (hdash : name.toList.head? ≠ some '-') :
      Written (.filter name value) (name.toList ++ '=' :: value.toList)
  /-- A name and a body in parentheses. -/
  | relation {name body : String} (hname : FlatText name.toList)
      (htrim : trim body.toList = body.toList) (hblank : ¬ IsBlank body.toList)
      (hbody : Balanced body.toList) :
      Written (.relation name body) (name.toList ++ '(' :: (body.toList ++ [')']))

/-- **A written token** is read back, and its parentheses match. -/
lemma Token.Written.reads_back {token : Token} {text : List Char} (h : token.Written text) :
    tokens text = [token] ∧ Balanced text := by
  -- all but relations are written as flat words
  have hword : ∀ {text : List Char} {token : Token}, FlatText text → text ≠ [] →
      classify text = token → tokens text = [token] ∧ Balanced text :=
    fun hflat hne hclassify => ⟨hclassify ▸ hflat.tokens_eq hne, hflat.balanced⟩
  cases h with
  | all hall =>
      have hall' : isAll text = true := by simpa [isAll] using hall
      refine hword (flatText_of_isAll hall') ?_ (classify_of_isAll hall')
      rintro rfl
      cases hall
  | @field name hname hne hall hdash hequals =>
      have hall' : isAll name.toList = false := by simpa [isAll] using hall
      refine hword hname (fun hnil => hne (String.toList_eq_nil_iff.mp hnil)) ?_
      rw [classify_name hall' hdash hequals, String.ofList_toList]
  | @except name hname hequals =>
      refine hword (flatText_nil.append_cons hname (by decide)) (List.cons_ne_nil _ _) ?_
      rw [classify_dash hequals, hname.trim_eq, String.ofList_toList]
  | @filter name value hname hvalue hequals hequals' hdash =>
      refine hword (hname.append_cons hvalue (by decide)) (by simp) ?_
      rw [classify_filter hequals hequals' hdash, hname.trim_eq, hvalue.trim_eq,
        String.ofList_toList, String.ofList_toList]
  | @relation name body hname htrim hblank hbody =>
      refine ⟨?_, hname.balanced.append hbody.parenthesized⟩
      have hne : ¬ trim body.toList = [] := mt trim_eq_nil_iff.mp hblank
      rw [tokens_relation hname.comma hname.opening hbody, bodyText, if_neg hne, hname.trim_eq,
        htrim, String.ofList_toList, String.ofList_toList]

/-- **Lists of tokens are read back** from the text that they are written to with commas between
them, and the scan has nothing to complain about. -/
theorem tokenize_join_written {list : List Token} {texts : List (List Char)}
    (h : List.Forall₂ Token.Written list texts) :
    (tokenize (join ',' texts)).tokens.map (·.token) = list ∧
      (tokenize (join ',' texts)).issues = [] := by
  have hbalanced : ∀ text ∈ texts, Balanced text := by
    induction h with
    | nil => exact fun _ hmem => absurd hmem List.not_mem_nil
    | cons htoken _ ih => exact List.forall_mem_cons.mpr ⟨htoken.reads_back.2, ih⟩
  refine ⟨?_, (Balanced.join hbalanced).issues_eq_nil⟩
  rw [map_token_tokenize, (tokens_join fun text htext => (hbalanced text htext).closed).1]
  induction h with
  | nil => rfl
  | cons htoken _ ih =>
      obtain ⟨-, hrest⟩ := List.forall_mem_cons.mp hbalanced
      rw [List.flatMap_cons, htoken.reads_back.1, ih hrest, List.singleton_append]

/-- Tokens of all kinds, some of them with empty parts. -/
theorem tokenize_join_written_bakery :
    (tokenize "aLL,a==é,-,größe=,-baker(name,(towns(all)))".toList).tokens.map (·.token)
        = [.all, .field "a==é", .except "", .filter "größe" "",
          .relation "-baker" "name,(towns(all))"] ∧
      (tokenize "aLL,a==é,-,größe=,-baker(name,(towns(all)))".toList).issues = [] := by
  have htext : "aLL,a==é,-,größe=,-baker(name,(towns(all)))".toList
      = join ',' ["aLL".toList, "a==é".toList, '-' :: "".toList,
          "größe".toList ++ '=' :: "".toList,
          "-baker".toList ++ '(' :: ("name,(towns(all))".toList ++ [')'])] := by
    decide
  have hfield : Token.Written (.field "a==é") "a==é".toList :=
    .field (by decide) (by decide) (by decide) (by decide) (by decide)
  have hexcept : Token.Written (.except "") ('-' :: "".toList) := .except (by decide) (by decide)
  have hfilter : Token.Written (.filter "größe" "") ("größe".toList ++ '=' :: "".toList) :=
    .filter (by decide) (by decide) (by decide) (by decide) (by decide)
  have hrelation : Token.Written (.relation "-baker" "name,(towns(all))")
      ("-baker".toList ++ '(' :: ("name,(towns(all))".toList ++ [')'])) :=
    .relation (by decide) (by decide) (by decide) (by decide)
  rw [htext]
  exact tokenize_join_written
    (.cons (.all (by decide)) (.cons hfield (.cons hexcept (.cons hfilter (.cons hrelation .nil)))))

end FieldSelection.Selection
