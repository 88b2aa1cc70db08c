import FieldSelection.Number.Binary64

/-!
JSON values.

Objects are lists of entries in order. A whole number and a number with a binary
point are different values even where they are equal as numbers.

* `Json`: the values, with decidable equality.
* `Entries.lookup?`, `Entries.put`: an object as a finite map. Putting a key that
  is there replaces its value where it stands, and a new key comes last;
  `Entries.lookup?_put` and `Entries.keys_put` say so.
* `Entries.putSorted`: the same for entries that are kept in the order of their
  keys.
* `Json.settle`: a value whose objects have no repeated keys.
-/

namespace FieldSelection

/-- A JSON number. -/
inductive Number where
  | int (n : Int)
  | float (x : Binary64)
  deriving DecidableEq, Repr

/-- A JSON value. -/
inductive Json where
  | null
  | bool (b : Bool)
  | number (n : Number)
  | string (s : String)
  | array (items : List Json)
  | object (entries : List (String × Json))
  deriving Repr, Inhabited

namespace Json

/-! ### Equality -/

mutual

/-- Two values are equal or not. -/
def decEq : (a b : Json) → Decidable (a = b)
  | .null, .null => isTrue rfl
  | .bool a, .bool b => decidable_of_iff (a = b) (by simp)
  | .number a, .number b => decidable_of_iff (a = b) (by simp)
  | .string a, .string b => decidable_of_iff (a = b) (by simp)
  | .array a, .array b =>
    have := decEqItems a b
    decidable_of_iff (a = b) (by simp)
  | .object a, .object b =>
    have := decEqEntries a b
    decidable_of_iff (a = b) (by simp)
  | .null, .bool _ | .null, .number _ | .null, .string _ | .null, .array _
  | .null, .object _ | .bool _, .null | .bool _, .number _ | .bool _, .string _
  | .bool _, .array _ | .bool _, .object _ | .number _, .null | .number _, .bool _
  | .number _, .string _ | .number _, .array _ | .number _, .object _
  | .string _, .null | .string _, .bool _ | .string _, .number _
  | .string _, .array _ | .string _, .object _ | .array _, .null | .array _, .bool _
  | .array _, .number _ | .array _, .string _ | .array _, .object _
  | .object _, .null | .object _, .bool _ | .object _, .number _
  | .object _, .string _ | .object _, .array _ => isFalse (by simp)

/-- Two lists of values are equal or not. -/
def decEqItems : (a b : List Json) → Decidable (a = b)
  | [], [] => isTrue rfl
  | [], _ :: _ | _ :: _, [] => isFalse (by simp)
  | a :: as, b :: bs =>
    have := decEq a b
    have := decEqItems as bs
    decidable_of_iff (a = b ∧ as = bs) (by simp)

/-- Two lists of entries are equal or not. -/
def decEqEntries : (a b : List (String × Json)) → Decidable (a = b)
  | [], [] => isTrue rfl
  | [], _ :: _ | _ :: _, [] => isFalse (by simp)
  | (k, a) :: as, (l, b) :: bs =>
    have := decEq a b
    have := decEqEntries as bs
    decidable_of_iff (k = l ∧ a = b ∧ as = bs) (by simp [and_assoc])

end

instance : DecidableEq Json := decEq

/-! ### Shorthands -/

/-- A whole number. -/
def int (n : Int) : Json :=
  .number (.int n)

/-- A natural number. -/
def nat (n : Nat) : Json :=
  .number (.int n)

/-- A list of strings. -/
def strings (items : List String) : Json :=
  .array (items.map .string)

/-- A value or `null`. -/
def ofOption (f : α → Json) : Option α → Json
  | none => .null
  | some a => f a

end Json

/-! ### Entries -/

namespace Entries

variable {α : Type}

/-- The value under a key. -/
def lookup? (key : String) : List (String × α) → Option α
  | [] => none
  | (k, value) :: entries => if k = key then some value else lookup? key entries

/-- Put a value under a key: where the key stands, or else at the end. -/
def put (key : String) (value : α) : List (String × α) → List (String × α)
  | [] => [(key, value)]
  | (k, old) :: entries =>
    if k = key then (k, value) :: entries else (k, old) :: put key value entries

/-- The keys in order. -/
def keys (entries : List (String × α)) : List String :=
  entries.map (·.1)

/-- Put the entries of a list one after the other. -/
def putAll (entries new : List (String × α)) : List (String × α) :=
  new.foldl (fun all entry => put entry.1 entry.2 all) entries

/-- Put a value under a key into entries that are sorted by key: in place of the
entry of that key, or else where the key belongs. -/
def putSorted (key : String) (value : α) : List (String × α) → List (String × α)
  | [] => [(key, value)]
  | (k, old) :: entries =>
    if key < k then (key, value) :: (k, old) :: entries
    else if key = k then (key, value) :: entries
    else (k, old) :: putSorted key value entries

/-- The entries of a list, a repeated key at its first place with its last
value. -/
def merge (entries : List (String × α)) : List (String × α) :=
  putAll [] entries

@[simp]
theorem lookup?_nil (key : String) : lookup? key ([] : List (String × α)) = none := rfl

/-- After a value was put under a key, it is found there, and all other keys lead
to what they led to before. -/
theorem lookup?_put (key other : String) (value : α) (entries : List (String × α)) :
    lookup? other (put key value entries) =
      if key = other then some value else lookup? other entries := by
  induction entries with
  | nil => rfl
  | cons entry entries ih =>
    obtain ⟨k, old⟩ := entry
    by_cases hk : k = key
    · subst hk
      by_cases ho : k = other <;> simp [put, lookup?, ho]
    · by_cases ho : k = other
      · subst ho
        simp [put, lookup?, hk, Ne.symm hk]
      · simp [put, lookup?, hk, ho, ih]

/-- Putting keeps the keys if the key is among them, and adds it at the end
otherwise. -/
theorem keys_put (key : String) (value : α) (entries : List (String × α)) :
    keys (put key value entries) =
      if key ∈ keys entries then keys entries else keys entries ++ [key] := by
  induction entries with
  | nil => simp [put, keys]
  | cons entry entries ih =>
    obtain ⟨k, old⟩ := entry
    by_cases hk : k = key
    · simp [put, keys, hk]
    · rw [keys] at ih
      simp only [put, hk, if_false, keys, List.map_cons, List.mem_cons,
        Ne.symm hk, false_or, ih]
      split <;> simp_all

end Entries

namespace Json

/-! ### Repeated keys -/

mutual

/-- A value in which every object was merged: a repeated key keeps its first
place and takes its last value. -/
def settle : Json → Json
  | .array items => .array (settleItems items)
  | .object entries => .object (Entries.merge (settleEntries entries))
  | value => value

/-- A list of values, each of them settled. -/
def settleItems : List Json → List Json
  | [] => []
  | value :: items => settle value :: settleItems items

/-- A list of entries, each value settled. -/
def settleEntries : List (String × Json) → List (String × Json)
  | [] => []
  | (key, value) :: entries => (key, settle value) :: settleEntries entries

end

/-! ### Views -/

/-- The value under a key of an object. -/
def get? (key : String) : Json → Option Json
  | .object entries => Entries.lookup? key entries
  | _ => none

end Json

end FieldSelection
