import Mathlib.Data.List.Count
import FieldSelection.Proofs.Selection.Balance

/-!
The end of a body, byte by byte.

Positions count bytes, and the search for the parenthesis that closes a body may start at any
of them, also inside a character or behind the text. The bytes of a character are no
parentheses unless it is one, so nothing is lost by reading a text byte by byte.

* `ClosesAt`: the byte that closes a body, told by counting parentheses.
* `seekClose`, `matchingClose_eq_seekClose`: the search over bytes, and that it is the search
  over characters.
* `Arrives`: where the search gets to and what its counter is there, step by step; the counter
  may be any integer. `Arrives.nestAll_eq` is what a run keeps, and `Arrives.seekClose_eq` says
  that the search goes on with that counter.
* `matchingClose_exact`: the search finds the byte that closes the body, and only that one, and
  its counter never falls below zero.
-/

namespace FieldSelection

/-! ### Texts in bytes -/

namespace Text

/-- The bytes of a text in UTF-8. -/
def encode (text : List Char) : List UInt8 :=
  text.flatMap String.utf8EncodeChar

lemma encode_cons (c : Char) (text : List Char) :
    encode (c :: text) = String.utf8EncodeChar c ++ encode text :=
  List.flatMap_cons

/-- A character that takes more than one byte has no ASCII byte. -/
lemma le_toNat_of_mem_utf8EncodeChar {c : Char} (hc : c.utf8Size ≠ 1) :
    ∀ b ∈ String.utf8EncodeChar c, 128 ≤ b.toNat := by
  have hval : ¬c.val.toNat ≤ 127 := by
    rwa [Ne, Char.utf8Size_eq_one_iff, UInt32.le_iff_toNat_le] at hc
  intro b hb
  simp only [String.utf8EncodeChar, if_neg hval] at hb
  split_ifs at hb <;> simp only [List.mem_cons, List.not_mem_nil, or_false] at hb
  -- two, three or four bytes, each with its highest bit set
  · rcases hb with rfl | rfl <;> rw [UInt8.toNat_ofNat'] <;> omega
  · rcases hb with rfl | rfl | rfl <;> rw [UInt8.toNat_ofNat'] <;> omega
  · rcases hb with rfl | rfl | rfl | rfl <;> rw [UInt8.toNat_ofNat'] <;> omega

end Text

namespace Selection

open Text

/-- The byte of an opening parenthesis. -/
def opening : UInt8 := 0x28

/-- The byte of a closing parenthesis. -/
def closing : UInt8 := 0x29

/-! ### The level of bytes -/

/-- Bytes as characters, each byte for itself. -/
def spelled (bytes : List UInt8) : List Char :=
  bytes.map Char.ofUInt8

lemma ofUInt8_injective : Function.Injective Char.ofUInt8 := fun _ _ h =>
  UInt8.toUInt32_inj.mp (congrArg Char.val h)

lemma spelled_append (left right : List UInt8) :
    spelled (left ++ right) = spelled left ++ spelled right :=
  List.map_append

lemma count_spelled (bytes : List UInt8) (b : UInt8) :
    (spelled bytes).count (Char.ofUInt8 b) = bytes.count b :=
  List.count_map_of_injective bytes Char.ofUInt8 ofUInt8_injective b

/-- A byte that is no parenthesis leaves the level as it is. -/
lemma nest_of_ne {b : UInt8} (ho : b ≠ opening) (hc : b ≠ closing) (level : Nat) :
    nest level (Char.ofUInt8 b) = some level := by
  have ho' : Char.ofUInt8 b ≠ '(' := fun h => ho (ofUInt8_injective h)
  have hc' : Char.ofUInt8 b ≠ ')' := fun h => hc (ofUInt8_injective h)
  rw [nest, if_neg ho', if_neg hc']

/-- Bytes beyond ASCII leave the level as it is. -/
lemma nestAll_spelled_of_le {bytes : List UInt8} (h : ∀ b ∈ bytes, 128 ≤ b.toNat) (level : Nat) :
    nestAll level (spelled bytes) = some level := by
  induction bytes with
  | nil => rfl
  | cons b bytes ih =>
      have hb := h b (by simp)
      have ho : b ≠ opening := by rintro rfl; exact absurd hb (by decide)
      have hc : b ≠ closing := by rintro rfl; exact absurd hb (by decide)
      rw [spelled, List.map_cons, nestAll, nest_of_ne ho hc, Option.bind_some]
      exact ih fun b hb => h b (by simp [hb])

/-- The bytes of a character lead to the same level as the character. -/
lemma nestAll_spelled_utf8EncodeChar (level : Nat) (c : Char) :
    nestAll level (spelled (String.utf8EncodeChar c)) = nest level c := by
  by_cases hc : c.utf8Size = 1
  · have hle : c.val.toNat ≤ 127 :=
      UInt32.le_iff_toNat_le.mp (Char.utf8Size_eq_one_iff.mp hc)
    have hval : c.val.toUInt8.toUInt32 = c.val := by
      rw [← UInt32.toNat_inj, UInt8.toNat_toUInt32, UInt32.toNat_toUInt8]
      omega
    have hchar : Char.ofUInt8 c.val.toUInt8 = c := Char.ext hval
    rw [String.utf8EncodeChar_eq_singleton hc, spelled, List.map_singleton, hchar, nestAll]
    exact Option.bind_fun_some _
  · have ho : c ≠ '(' := by rintro rfl; exact hc rfl
    have hc' : c ≠ ')' := by rintro rfl; exact hc rfl
    rw [nestAll_spelled_of_le (le_toNat_of_mem_utf8EncodeChar hc), nest, if_neg ho, if_neg hc']

/-! ### The search over bytes -/

/-- The search for the end of a body over bytes that start at `position`, where `level`
parentheses are open. -/
def seekClose (level position : Nat) : List UInt8 → Option Nat
  | [] => none
  | b :: bytes =>
    match nest level (Char.ofUInt8 b) with
    | none => some position
    | some level => seekClose level (position + 1) bytes

/-- As long as bytes do not close the body, the search goes on behind them. -/
lemma seekClose_append {level next : Nat} {inner : List UInt8}
    (h : nestAll level (spelled inner) = some next) (position : Nat) (rest : List UInt8) :
    seekClose level position (inner ++ rest) = seekClose next (position + inner.length) rest := by
  induction inner generalizing level position with
  | nil =>
      cases h
      rfl
  | cons b inner ih =>
      rw [spelled, List.map_cons, nestAll] at h
      obtain ⟨mid, hmid, hinner⟩ := Option.bind_eq_some_iff.mp h
      rw [List.cons_append, seekClose, hmid, List.length_cons]
      simp only [ih hinner, Nat.add_assoc, Nat.add_comm 1]

/-- From `first` on, the search over characters is the one over their bytes. -/
lemma closeFrom_of_le {first position : Nat} (h : first ≤ position) (level : Nat)
    (text : List Char) :
    closeFrom first level position text = seekClose level position (encode text) := by
  induction text generalizing level position with
  | nil => rfl
  | cons c text ih =>
      rw [closeFrom, if_neg (Nat.not_lt.mpr h), encode_cons]
      cases hnest : nest level c with
      | none =>
          obtain rfl := eq_of_nest_eq_none hnest
          have hclose : nest level (Char.ofUInt8 closing) = none := hnest
          rw [show String.utf8EncodeChar ')' = [closing] from rfl, List.singleton_append, seekClose,
            hclose]
      | some next =>
          have hbytes := (nestAll_spelled_utf8EncodeChar level c).trans hnest
          rw [seekClose_append hbytes, String.length_utf8EncodeChar]
          exact ih (Nat.le_add_right_of_le h) next

/-- What starts in front of `first` is skipped, and of a character that `first` lies inside, the
other bytes as well: they are no parentheses. -/
lemma closeFrom_of_ge {first position : Nat} (h : position ≤ first) (level : Nat)
    (text : List Char) :
    closeFrom first level position text
      = seekClose level first ((encode text).drop (first - position)) := by
  induction text generalizing position with
  | nil => rw [encode, List.flatMap_nil, List.drop_nil, closeFrom, seekClose]
  | cons c text ih =>
      have hlength := String.length_utf8EncodeChar c
      rcases Nat.eq_or_lt_of_le h with rfl | hlt
      · rw [Nat.sub_self, List.drop_zero, closeFrom_of_le (Nat.le_refl _)]
      rw [closeFrom, if_pos hlt, encode_cons, List.drop_append, hlength]
      rcases Nat.le_or_le (position + c.utf8Size) first with hle | hge
      · have hskip : (String.utf8EncodeChar c).drop (first - position) = [] :=
          List.drop_eq_nil_of_le (by omega)
        rw [ih hle, hskip, List.nil_append, Nat.sub_sub]
      · have hhigh : ∀ b ∈ (String.utf8EncodeChar c).drop (first - position), 128 ≤ b.toNat := by
          intro b hb
          by_cases hsize : c.utf8Size = 1
          · rw [List.drop_eq_nil_of_le (by omega)] at hb
            cases hb
          · exact le_toNat_of_mem_utf8EncodeChar hsize b (List.mem_of_mem_drop hb)
        have hend : first + (c.utf8Size - (first - position)) = position + c.utf8Size := by omega
        rw [seekClose_append (nestAll_spelled_of_le hhigh level), List.length_drop, hlength, hend,
          Nat.sub_eq_zero_of_le (by omega), List.drop_zero, closeFrom_of_le hge]

/-- **The search over characters is the search over bytes.** -/
lemma matchingClose_eq_seekClose (text : List Char) (first : Nat) :
    matchingClose text first = seekClose 0 first ((encode text).drop first) := by
  rw [matchingClose, closeFrom_of_ge (Nat.zero_le first), Nat.sub_zero]

/-- Where the search over bytes ends: behind bytes that lead back to level `0`, at a closing
parenthesis. -/
lemma seekClose_eq_some_iff {level position close : Nat} {bytes : List UInt8} :
    seekClose level position bytes = some close ↔
      ∃ inner rest, bytes = inner ++ closing :: rest ∧ close = position + inner.length ∧
        nestAll level (spelled inner) = some 0 := by
  constructor
  · intro h
    induction bytes generalizing level position with
    | nil => cases h
    | cons b bytes ih =>
        rw [seekClose] at h
        split at h
        · next hnest =>
          have hb : b = closing := ofUInt8_injective (eq_of_nest_eq_none hnest)
          obtain rfl := level_eq_zero_of_nest hnest
          exact ⟨[], bytes, by rw [hb, List.nil_append], (Option.some.inj h).symm, rfl⟩
        · next next hnest =>
          obtain ⟨inner, rest, rfl, rfl, hinner⟩ := ih h
          refine ⟨b :: inner, rest, rfl, by rw [List.length_cons]; omega, ?_⟩
          rw [spelled, List.map_cons, nestAll, hnest]
          exact hinner
  · rintro ⟨inner, rest, rfl, rfl, hinner⟩
    have hclose : nest 0 (Char.ofUInt8 closing) = none := rfl
    rw [seekClose_append hinner, seekClose, hclose]

/-! ### Counting parentheses -/

/-- **The byte that closes a body** which starts at `first`: a closing parenthesis between which
and `first` as many are opened as closed, and no point has closed more than was opened. -/
structure ClosesAt (bytes : List UInt8) (first close : Nat) : Prop where
  first_le : first ≤ close
  isClosing : bytes[close]? = some closing
  balanced : (bytes.extract first close).count opening = (bytes.extract first close).count closing
  opened : ∀ start, start <+: bytes.extract first close → start.count closing ≤ start.count opening

lemma drop_eq_extract_append {bytes : List UInt8} {first stop : Nat} (hle : first ≤ stop) :
    bytes.drop first = bytes.extract first stop ++ bytes.drop stop := by
  have hdrop : bytes.drop stop = (bytes.drop first).drop (stop - first) := by
    rw [List.drop_drop, Nat.add_sub_cancel' hle]
  rw [hdrop, List.extract_eq_take_drop, List.take_append_drop]

lemma extract_succ {bytes : List UInt8} {first position : Nat} {b : UInt8}
    (hle : first ≤ position) (hb : bytes[position]? = some b) :
    bytes.extract first (position + 1) = bytes.extract first position ++ [b] := by
  rw [List.extract_eq_take_drop, List.extract_eq_take_drop, Nat.sub_add_comm hle, List.take_add_one,
    List.getElem?_drop, Nat.add_sub_cancel' hle, hb, Option.toList_some]

/-- One more byte is one more position. -/
lemma add_length_extract_succ {bytes : List UInt8} {first position : Nat} {b : UInt8}
    (h : first + (bytes.extract first position).length = position)
    (hb : bytes[position]? = some b) :
    first + (bytes.extract first (position + 1)).length = position + 1 := by
  rw [extract_succ (by omega) hb, List.length_append, List.length_singleton]
  omega

/-- One more byte leads from the level of the bytes before it to the level behind it. -/
lemma nestAll_extract_succ {bytes : List UInt8} {first position : Nat} {b : UInt8}
    (hle : first ≤ position) (hb : bytes[position]? = some b) :
    nestAll 0 (spelled (bytes.extract first (position + 1)))
      = (nestAll 0 (spelled (bytes.extract first position))).bind (nest · (Char.ofUInt8 b)) := by
  rw [extract_succ hle hb, spelled_append, nestAll_append]
  exact congrArg _ (funext fun level => Option.bind_fun_some _)

/-- Bytes are balanced if the characters for which they stand are. -/
lemma balanced_spelled_iff {bytes : List UInt8} :
    Balanced (spelled bytes) ↔
      bytes.count opening = bytes.count closing ∧
        ∀ start, start <+: bytes → start.count closing ≤ start.count opening := by
  have hopening (bytes : List UInt8) : (spelled bytes).count '(' = bytes.count opening :=
    count_spelled bytes opening
  have hclosing (bytes : List UInt8) : (spelled bytes).count ')' = bytes.count closing :=
    count_spelled bytes closing
  rw [Balanced, hopening, hclosing, and_comm]
  refine and_congr_right fun _ => ⟨fun h start hstart => ?_, fun h start hstart => ?_⟩
  · rw [← hopening, ← hclosing]
    exact h _ (hstart.map Char.ofUInt8)
  · obtain ⟨start, hprefix, rfl⟩ := List.prefix_map_iff.mp hstart
    rw [← spelled, hopening, hclosing]
    exact h start hprefix

/-- The byte that closes a body stands behind bytes that lead back to level `0`. -/
lemma closesAt_iff {bytes : List UInt8} {first close : Nat} :
    ClosesAt bytes first close ↔ first ≤ close ∧ bytes[close]? = some closing ∧
      nestAll 0 (spelled (bytes.extract first close)) = some 0 := by
  rw [← balanced_iff_nestAll, balanced_spelled_iff]
  exact ⟨fun h => ⟨h.first_le, h.isClosing, h.balanced, h.opened⟩,
    fun ⟨hle, hclose, hbalanced, hopened⟩ => ⟨hle, hclose, hbalanced, hopened⟩⟩

/-- **The search finds the byte that closes the body.** -/
lemma matchingClose_eq_some_iff {text : List Char} {first close : Nat} :
    matchingClose text first = some close ↔ ClosesAt (encode text) first close := by
  rw [matchingClose_eq_seekClose, seekClose_eq_some_iff, closesAt_iff]
  constructor
  · rintro ⟨inner, rest, hdrop, rfl, hinner⟩
    have hextract : (encode text).extract first (first + inner.length) = inner := by
      rw [List.extract_eq_take_drop, hdrop, Nat.add_sub_cancel_left, List.take_left]
    refine ⟨Nat.le_add_right _ _, ?_, by rwa [hextract]⟩
    rw [← List.getElem?_drop, hdrop, List.getElem?_append_right (Nat.le_refl _), Nat.sub_self,
      List.getElem?_cons_zero]
  · rintro ⟨hle, hclose, hinner⟩
    obtain ⟨hlt, hbyte⟩ := List.getElem?_eq_some_iff.mp hclose
    refine ⟨(encode text).extract first close, (encode text).drop (close + 1), ?_, ?_, hinner⟩
    · rw [← hbyte, List.getElem_cons_drop, drop_eq_extract_append hle]
    · rw [List.extract_eq_take_drop, List.length_take, List.length_drop]
      omega

/-! ### The counter of the search -/

/-- **Where the search gets to, and what its counter is there.** It starts at `first` with
nothing open, counts the parentheses, and goes on unless it finds a closing one with nothing
open. The counter may be any integer. -/
inductive Arrives (bytes : List UInt8) (first : Nat) : (position : Nat) → (level : Int) → Prop
  | start : Arrives bytes first first 0
  | opens {position : Nat} {level : Int} (h : Arrives bytes first position level)
      (hb : bytes[position]? = some opening) : Arrives bytes first (position + 1) (level + 1)
  | closes {position : Nat} {level : Int} (h : Arrives bytes first position level)
      (hb : bytes[position]? = some closing) (hlevel : level ≠ 0) :
      Arrives bytes first (position + 1) (level - 1)
  | passes {position : Nat} {level : Int} {b : UInt8} (h : Arrives bytes first position level)
      (hb : bytes[position]? = some b) (ho : b ≠ opening) (hc : b ≠ closing) :
      Arrives bytes first (position + 1) level

namespace Arrives

variable {bytes : List UInt8} {first position : Nat} {level : Int}

/-- The search has gone over all bytes from `first` on. -/
lemma add_length_extract (h : Arrives bytes first position level) :
    first + (bytes.extract first position).length = position := by
  induction h with
  | start => rw [List.extract_eq_take_drop, Nat.sub_self, List.take_zero]; rfl
  | opens _ hb ih => exact add_length_extract_succ ih hb
  | closes _ hb _ ih => exact add_length_extract_succ ih hb
  | passes _ hb _ _ ih => exact add_length_extract_succ ih hb

lemma first_le (h : Arrives bytes first position level) : first ≤ position := by
  have := h.add_length_extract
  omega

/-- **What a run keeps**: the counter is the level to which the bytes so far lead. -/
lemma nestAll_eq (h : Arrives bytes first position level) :
    ∃ n : Nat, level = n ∧ nestAll 0 (spelled (bytes.extract first position)) = some n := by
  induction h with
  | start => exact ⟨0, rfl, by rw [List.extract_eq_take_drop, Nat.sub_self]; rfl⟩
  | opens h hb ih =>
      obtain ⟨n, rfl, hn⟩ := ih
      exact ⟨n + 1, rfl, by rw [nestAll_extract_succ h.first_le hb, hn]; rfl⟩
  | closes h hb hlevel ih =>
      obtain ⟨n, rfl, hn⟩ := ih
      have hpos : n ≠ 0 := fun h0 => hlevel (by rw [h0]; rfl)
      have hnest : nest n (Char.ofUInt8 closing) = some (n - 1) := if_neg hpos
      exact ⟨n - 1, by omega, by rw [nestAll_extract_succ h.first_le hb, hn]; exact hnest⟩
  | passes h hb ho hc ih =>
      obtain ⟨n, rfl, hn⟩ := ih
      refine ⟨n, rfl, ?_⟩
      rw [nestAll_extract_succ h.first_le hb, hn]
      exact nest_of_ne ho hc n

/-- A byte that does not close the body lets the search go on behind it. -/
lemma step {before next : Nat} {b : UInt8} (h : Arrives bytes first position before)
    (hb : bytes[position]? = some b) (hnest : nest before (Char.ofUInt8 b) = some next) :
    Arrives bytes first (position + 1) next := by
  by_cases ho : b = opening
  · subst ho
    cases hnest
    exact h.opens hb
  by_cases hc : b = closing
  · subst hc
    have hcount := nest_eq_some_iff.mp hnest
    have hnext : (next : Int) = before - 1 := by
      have : before = 1 + next := hcount
      omega
    rw [hnext]
    exact h.closes hb (by omega)
  · cases (nest_of_ne ho hc before).symm.trans hnest
    exact h.passes hb ho hc

/-- The search gets behind bytes that do not close the body. -/
lemma of_nestAll {n : Nat} (hle : first ≤ position) (hend : position ≤ bytes.length)
    (h : nestAll 0 (spelled (bytes.extract first position)) = some n) :
    Arrives bytes first position n := by
  obtain ⟨length, rfl⟩ := Nat.exists_eq_add_of_le hle
  induction length generalizing n with
  | zero =>
      rw [List.extract_eq_take_drop, Nat.add_zero, Nat.sub_self] at h
      cases h
      exact start
  | succ length ih =>
      have hb : bytes[first + length]? = some bytes[first + length] :=
        List.getElem?_eq_getElem (by omega)
      rw [← Nat.add_assoc, nestAll_extract_succ (Nat.le_add_right _ _) hb] at h
      obtain ⟨before, hbefore, hnest⟩ := Option.bind_eq_some_iff.mp h
      exact (ih (Nat.le_add_right _ _) (by omega) hbefore).step hb hnest

/-- **The counter never falls below zero.** -/
lemma level_nonneg (h : Arrives bytes first position level) : 0 ≤ level := by
  obtain ⟨n, rfl, -⟩ := h.nestAll_eq
  exact Int.natCast_nonneg n

/-- The counter is what has been opened less what has been closed. -/
lemma level_add_count (h : Arrives bytes first position level) :
    level + (bytes.extract first position).count closing
      = (bytes.extract first position).count opening := by
  obtain ⟨n, rfl, hn⟩ := h.nestAll_eq
  have hcount := (nestAll_eq_some_iff.mp hn).2
  rw [show '(' = Char.ofUInt8 opening from rfl, show ')' = Char.ofUInt8 closing from rfl,
    count_spelled, count_spelled] at hcount
  omega

/-- **The search goes on from where it has got to, with the counter that it has there.** -/
lemma seekClose_eq (h : Arrives bytes first position level) :
    seekClose 0 first (bytes.drop first)
      = seekClose level.toNat position (bytes.drop position) := by
  obtain ⟨n, rfl, hn⟩ := h.nestAll_eq
  rw [drop_eq_extract_append h.first_le, seekClose_append hn, h.add_length_extract,
    Int.toNat_natCast]

end Arrives

/-- A body is closed where the search finds a closing parenthesis with nothing open. -/
lemma closesAt_iff_arrives {bytes : List UInt8} {first close : Nat} :
    ClosesAt bytes first close ↔
      Arrives bytes first close 0 ∧ bytes[close]? = some closing := by
  rw [closesAt_iff]
  constructor
  · rintro ⟨hle, hclose, hlevel⟩
    obtain ⟨hlt, -⟩ := List.getElem?_eq_some_iff.mp hclose
    exact ⟨.of_nestAll hle (Nat.le_of_lt hlt) hlevel, hclose⟩
  · rintro ⟨harrives, hclose⟩
    obtain ⟨n, hzero, hlevel⟩ := harrives.nestAll_eq
    obtain rfl : n = 0 := by omega
    exact ⟨harrives.first_le, hclose, hlevel⟩

/-- **The search for the end of a body is exact**, from every byte of every text on, be it inside
a character or behind the text. It finds the byte that closes the body; there is at most one,
and the search finds nothing only if there is none. It stops where it gets to a closing
parenthesis with its counter at zero. Wherever it gets, its counter is what has been opened less
what has been closed, is not below zero, and is what the search goes on with. -/
theorem matchingClose_exact (text : List Char) (first : Nat) :
    (∀ close, matchingClose text first = some close ↔ ClosesAt (encode text) first close) ∧
      (∀ close other, ClosesAt (encode text) first close → ClosesAt (encode text) first other →
        close = other) ∧
      (matchingClose text first = none ↔ ∀ close, ¬ClosesAt (encode text) first close) ∧
      (∀ close, matchingClose text first = some close ↔
        Arrives (encode text) first close 0 ∧ (encode text)[close]? = some closing) ∧
      ∀ position level, Arrives (encode text) first position level →
        0 ≤ level ∧
          level + ((encode text).extract first position).count closing
            = ((encode text).extract first position).count opening ∧
          matchingClose text first
            = seekClose level.toNat position ((encode text).drop position) := by
  refine ⟨fun close => matchingClose_eq_some_iff, fun close other hclose hother => ?_, ?_,
    fun close => matchingClose_eq_some_iff.trans closesAt_iff_arrives, fun position level h => ?_⟩
  · rw [← matchingClose_eq_some_iff] at hclose hother
    exact Option.some.inj (hclose.symm.trans hother)
  · simp only [Option.eq_none_iff_forall_ne_some, ne_eq, matchingClose_eq_some_iff]
  · exact ⟨h.level_nonneg, h.level_add_count,
      (matchingClose_eq_seekClose text first).trans h.seekClose_eq⟩

/-- A body with a pair of parentheses in it and a character of two bytes in front. -/
def orchardBody : List Char :=
  ['é', '(', 'a', ')', 'b', ')', 'c']

/-- The search starts between the two bytes of the first character, passes the inner pair and
stops at the second closing parenthesis; behind that one there is nothing to find. -/
theorem matchingClose_exact_orchard :
    matchingClose orchardBody 1 = some 6 ∧ ClosesAt (encode orchardBody) 1 6 ∧
      (∀ other, ClosesAt (encode orchardBody) 1 other → 6 = other) ∧
      Arrives (encode orchardBody) 1 4 1 ∧ Arrives (encode orchardBody) 1 6 0 ∧
      (0 : Int) ≤ 1 ∧ ∀ close, ¬ClosesAt (encode orchardBody) 7 close := by
  obtain ⟨hfound, hunique, -, hstop, hcounter⟩ := matchingClose_exact orchardBody 1
  have h : matchingClose orchardBody 1 = some 6 := by decide
  have hinner : Arrives (encode orchardBody) 1 4 1 :=
    ((Arrives.start.passes (b := 0xA9) (by decide) (by decide) (by decide)).opens
      (by decide)).passes (b := 0x61) (by decide) (by decide) (by decide)
  exact ⟨h, (hfound 6).mp h, fun other => hunique 6 other ((hfound 6).mp h), hinner,
    ((hstop 6).mp h).1, (hcounter 4 1 hinner).1,
    (matchingClose_exact orchardBody 7).2.2.1.mp (by decide)⟩

end Selection

end FieldSelection
