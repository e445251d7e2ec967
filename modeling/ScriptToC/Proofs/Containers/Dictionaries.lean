import ScriptToC.Proofs.Evaluation.Strings

/-!
# Dictionaries at run time

The macros of the runtime keep a dictionary in two arrays, one of keys and one of values. A key is
looked for from the front with `strcmp`, and where it is not found the position is -1. `DICT_SET`
stores at the position that was found, or else adds the key and the value at the end. `DICT_GET`
names the element at the position that was found, and can be assigned to; -1 is no position in an
array, and what C does there is undefined.

So an assignment to `DICT_GET` is `DICT_SET` if the dictionary has the key, and undefined else
(`assign?_eq`). The sizes are taken to stay within their 16 bits, and memory not to run out.
-/

set_option autoImplicit false

namespace ScriptToC

/-- A dictionary at run time. -/
structure Dictionary (α : Type) where
  keys : List String
  values : List α
  length_eq : values.length = keys.length

namespace Dictionary

variable {α : Type} {d : Dictionary α} {key other : String} {value : α}

/-! ## Positions -/

/-- The search of `dict_find_pos` in keys that begin at a position. -/
def findFrom (key : String) : Nat → List String → Int
  | _, [] => -1
  | position, first :: rest =>
    if strcmp first key = 0 then position else findFrom key (position + 1) rest

/-- The position of a key, by `dict_find_pos`. -/
def position (d : Dictionary α) (key : String) : Int :=
  findFrom key 0 d.keys

/-- The dictionary has a key: one that C cannot tell from it. -/
def Has (d : Dictionary α) (key : String) : Prop :=
  ∃ own ∈ d.keys, upToNul own = upToNul key

instance (d : Dictionary α) (key : String) : Decidable (d.Has key) :=
  inferInstanceAs (Decidable (∃ own ∈ d.keys, upToNul own = upToNul key))

/-- A search finds the first key that is alike. -/
theorem findFrom_eq (key : String) (start : Nat) (keys : List String) :
    findFrom key start keys =
      ((keys.findIdx? fun own => upToNul own = upToNul key).elim (-1) fun found =>
        ((start + found : Nat) : Int)) := by
  induction keys generalizing start with
  | nil => rfl
  | cons first rest ih =>
    rw [findFrom, List.findIdx?_cons]
    by_cases alike : upToNul first = upToNul key
    · simp [strcmp_eq_zero_iff, alike]
    · rw [if_neg (mt strcmp_eq_zero_iff.1 alike), ih, decide_eq_false alike]
      cases rest.findIdx? fun own => upToNul own = upToNul key with
      | none => rfl
      | some found => simp [Nat.add_assoc, Nat.add_comm 1]

/-- A key that is there has a position in the arrays. -/
theorem position_of_has (has : d.Has key) :
    ∃ found : Nat, d.position key = found ∧ found < d.values.length := by
  obtain ⟨own, member, alike⟩ := has
  cases search : d.keys.findIdx? fun own => upToNul own = upToNul key with
  | none =>
    rw [List.findIdx?_eq_none_iff] at search
    exact absurd alike (of_decide_eq_false (search own member))
  | some found =>
    obtain ⟨inside, -, -⟩ := List.findIdx?_eq_some_iff_getElem.1 search
    refine ⟨found, ?_, d.length_eq ▸ inside⟩
    rw [position, findFrom_eq, search, Option.elim_some, Nat.zero_add]

theorem search_of_not_has (absent : ¬ d.Has key) :
    (d.keys.findIdx? fun own => upToNul own = upToNul key) = none := by
  rw [List.findIdx?_eq_none_iff]
  intro own member
  exact decide_eq_false fun alike => absent ⟨own, member, alike⟩

/-- A key that is not there has the position -1. -/
theorem position_of_not_has (absent : ¬ d.Has key) : d.position key = -1 := by
  rw [position, findFrom_eq, search_of_not_has absent, Option.elim_none]

/-- The position tells whether the key is there. -/
theorem position_lt_zero_iff : d.position key < 0 ↔ ¬ d.Has key := by
  constructor
  · intro negative has
    obtain ⟨found, position, -⟩ := position_of_has has
    rw [position] at negative
    exact Int.not_lt.2 (Int.natCast_nonneg found) negative
  · intro absent
    rw [position_of_not_has absent]
    decide

/-! ## Reading and storing -/

/-- What stands at a position of an array; in front of the array stands nothing. -/
def element? (array : List α) (position : Int) : Option α :=
  if 0 ≤ position then array[position.toNat]? else none

/-- The value of `DICT_GET`, where it has one. -/
def get? (d : Dictionary α) (key : String) : Option α :=
  element? d.values (d.position key)

/-- What an assignment to `DICT_GET` leaves, where that is defined. -/
def assign? (d : Dictionary α) (key : String) (value : α) : Option (Dictionary α) :=
  (element? d.values (d.position key)).map fun _ =>
    ⟨d.keys, d.values.set (d.position key).toNat value, by rw [List.length_set, d.length_eq]⟩

/-- What `DICT_SET` leaves. -/
def set (d : Dictionary α) (key : String) (value : α) : Dictionary α :=
  if d.position key < 0 then
    ⟨d.keys ++ [key], d.values ++ [value], by
      rw [List.length_append, List.length_append, d.length_eq, List.length_singleton,
        List.length_singleton]⟩
  else
    ⟨d.keys, d.values.set (d.position key).toNat value, by rw [List.length_set, d.length_eq]⟩

/-- A key has a value exactly if it is there. -/
theorem get?_isSome_iff : (d.get? key).isSome = true ↔ d.Has key := by
  constructor
  · intro isSome
    by_contra absent
    rw [get?, position_of_not_has absent] at isSome
    cases isSome
  · intro has
    obtain ⟨found, position, inside⟩ := position_of_has has
    simp [get?, element?, position, inside]

/-- Where the key is there, an assignment to `DICT_GET` does what `DICT_SET` does; elsewhere it is
undefined. -/
theorem assign?_eq (d : Dictionary α) (key : String) (value : α) :
    d.assign? key value = if d.Has key then some (d.set key value) else none := by
  by_cases has : d.Has key
  · obtain ⟨old, isOld⟩ := Option.isSome_iff_exists.1 (get?_isSome_iff.2 has)
    rw [get?] at isOld
    rw [if_pos has, assign?, isOld, Option.map_some, set,
      if_neg fun negative => position_lt_zero_iff.1 negative has]
  · have undefined : d.get? key = none :=
      Option.not_isSome_iff_eq_none.1 (mt get?_isSome_iff.1 has)
    rw [get?] at undefined
    rw [if_neg has, assign?, undefined, Option.map_none]

/-- After `DICT_SET` the key has the value, whatever was in the dictionary. -/
theorem get?_set (d : Dictionary α) (key : String) (value : α) :
    (d.set key value).get? key = some value := by
  by_cases has : d.Has key
  · obtain ⟨found, position, inside⟩ := position_of_has has
    have there : ¬ d.position key < 0 := fun negative => position_lt_zero_iff.1 negative has
    have kept : (d.set key value).position key = found := by
      rw [set, if_neg there]
      exact position
    rw [get?, kept, set, if_neg there]
    simp [element?, position, inside]
  · have new : d.position key < 0 := position_lt_zero_iff.2 has
    have last : (d.set key value).position key = d.keys.length := by
      rw [set, if_pos new, position, findFrom_eq, List.findIdx?_append, search_of_not_has has]
      simp
    rw [get?, last, set, if_pos new, ← d.length_eq]
    simp [element?]

/-- An assignment to `DICT_GET` leaves the key with the value exactly if the key was there. -/
theorem get?_assign?_iff (d : Dictionary α) (key : String) (value : α) :
    (d.assign? key value).bind (·.get? key) = some value ↔ d.Has key := by
  rw [assign?_eq]
  by_cases has : d.Has key
  · simp [has, get?_set]
  · simp [has]

end Dictionary

end ScriptToC
