import Mathlib.Data.List.Nodup
import Std.Data.String.ToNat
import ScriptToC.Names

/-!
# Fresh names are fresh

The sequences that names are taken from do not repeat. A search through one name more than are taken
therefore finds a name that is free (`isTaken_free`), and no node ever gets a name that was reserved
at the start, also if it asks twice (`Apart.counter`, `Apart.temporary`).
-/

set_option autoImplicit false

namespace ScriptToC.Names

/-! ## The sequences -/

/-- What distinguishes the names of a sequence that have the same base. -/
def numbering (index : Nat) : String :=
  if index = 0 then "" else "_" ++ toString (index + 1)

theorem number_ne_empty (text : String) : "_" ++ text ≠ "" := by
  intro empty
  have lists := congrArg String.toList empty
  rw [String.toList_append] at lists
  exact absurd lists (by simp)

theorem numbering_injective : Function.Injective numbering := by
  intro index index' same
  rw [numbering, numbering] at same
  split at same <;> split at same
  next first first' => rw [first, first']
  next => exact absurd same.symm (number_ne_empty _)
  next => exact absurd same (number_ne_empty _)
  next =>
    have numbers := Nat.repr_inj.1 ((String.append_right_inj "_").1 same)
    omega

theorem temporaryName_eq (hint : String) (index : Nat) :
    temporaryName hint index = hint ++ numbering index := by
  rw [temporaryName, numbering]
  split
  · rw [String.append_empty]
  · rw [String.append_assoc]

/-- Bases of one length give different names. -/
theorem temporaryName_inj {hint hint' : String} (lengths : hint.length = hint'.length)
    {index index' : Nat} (same : temporaryName hint index = temporaryName hint' index') :
    hint = hint' ∧ index = index' := by
  rw [temporaryName_eq, temporaryName_eq] at same
  have lists := congrArg String.toList same
  rw [String.toList_append, String.toList_append] at lists
  obtain ⟨base, number⟩ := List.append_inj lists lengths
  exact ⟨String.toList_inj.1 base, numbering_injective (String.toList_inj.1 number)⟩

theorem temporaryName_injective (hint : String) : Function.Injective (temporaryName hint) := by
  intro index index' same
  exact (temporaryName_inj rfl same).2

/-- A counter name is numbered by its round. -/
theorem counterName_eq (index : Nat) :
    counterName index = temporaryName (counterBases.getD (index % 6) "") (index / 6) := by
  rw [counterName, temporaryName]
  by_cases first : index < 6
  · rw [if_pos first, if_pos (Nat.div_eq_of_lt first)]
  · rw [if_neg first, if_neg (by omega)]

theorem length_counterBases : ∀ place < 6, (counterBases.getD place "").length = 1 := by
  decide

theorem counterBases_inj : ∀ place < 6, ∀ place' < 6,
    counterBases.getD place "" = counterBases.getD place' "" → place = place' := by
  decide

theorem counterName_injective : Function.Injective counterName := by
  intro index index' same
  have small : index % 6 < 6 := Nat.mod_lt _ (by decide)
  have small' : index' % 6 < 6 := Nat.mod_lt _ (by decide)
  rw [counterName_eq, counterName_eq] at same
  obtain ⟨base, round⟩ := temporaryName_inj
    ((length_counterBases _ small).trans (length_counterBases _ small').symm) same
  have place := counterBases_inj _ small _ small' base
  omega

/-! ## The search -/

/-- A search that ends with a name that is taken passed over names that are all taken. -/
theorem contains_of_contains_firstFree {taken : Std.TreeSet String} {sequence : Nat → String}
    {fuel index : Nat} (found : taken.contains (firstFree taken sequence fuel index) = true)
    {step : Nat} (small : step ≤ fuel) : taken.contains (sequence (index + step)) = true := by
  induction fuel generalizing index step with
  | zero =>
    obtain rfl := Nat.le_zero.1 small
    exact found
  | succ fuel ih =>
    rw [firstFree] at found
    split at found
    next first =>
      cases step with
      | zero => exact first
      | succ step =>
        have next := ih found (Nat.le_of_succ_le_succ small)
        rwa [Nat.add_right_comm] at next
    next first => exact absurd found first

/-- The search for a free name does not run out of names. -/
theorem isTaken_free (names : Names) {sequence : Nat → String}
    (different : Function.Injective sequence) : names.isTaken (names.free sequence) = false := by
  rw [← Bool.not_eq_true]
  intro found
  -- Otherwise more names than are taken would all be taken.
  let passed := (List.range (names.taken.size + 1)).map sequence
  have nodup : passed.Nodup := List.nodup_range.map different
  have taken : passed ⊆ names.taken.toList := by
    intro name member
    obtain ⟨step, small, rfl⟩ := List.mem_map.1 member
    have passedOver := contains_of_contains_firstFree found
      (Nat.le_of_lt_succ (List.mem_range.1 small))
    rw [Nat.zero_add] at passedOver
    exact Std.TreeSet.mem_toList.2 (Std.TreeSet.mem_iff_contains.2 passedOver)
  have lengths := nodup.length_le_of_subset taken
  rw [Std.TreeSet.length_toList, List.length_map, List.length_range] at lengths
  omega

/-! ## Names apart from the reserved ones -/

/-- The reserved names are taken, and none of them was given to a node. -/
structure Apart (reserved : List String) (names : Names) : Prop where
  taken : ∀ {name : String}, name ∈ reserved → names.isTaken name = true
  counters : ∀ {id : NodeId} {name : String}, (id, name) ∈ names.counters → name ∉ reserved
  temporaries : ∀ {key : NodeId × String} {name : String},
    (key, name) ∈ names.temporaries → name ∉ reserved

variable {reserved : List String} {names : Names}

theorem isTaken_foldl_reserve (list : List String) (names : Names) (name : String) :
    (list.foldl reserve names).isTaken name = true ↔
      name ∈ list ∨ names.isTaken name = true := by
  induction list generalizing names with
  | nil => simp
  | cons first rest ih =>
    rw [List.foldl_cons, ih, isTaken_reserve, Bool.or_eq_true, beq_iff_eq, List.mem_cons]
    exact or_left_comm.trans or_assoc.symm

theorem foldl_reserve_given (list : List String) (names : Names) :
    (list.foldl reserve names).counters = names.counters ∧
      (list.foldl reserve names).temporaries = names.temporaries := by
  induction list generalizing names with
  | nil => exact ⟨rfl, rfl⟩
  | cons first rest ih => exact ih (names.reserve first)

theorem apart_reserved (reserved : List String) :
    Apart reserved (reserved.foldl reserve {}) where
  taken := by
    intro name member
    exact (isTaken_foldl_reserve _ _ _).2 (.inl member)
  counters := by
    intro id name member
    rw [(foldl_reserve_given reserved {}).1] at member
    cases member
  temporaries := by
    intro key name member
    rw [(foldl_reserve_given reserved {}).2] at member
    cases member

/-- A name that a node was given is kept with the node. -/
theorem mem_of_lookup {α : Type} [BEq α] [LawfulBEq α] {list : List (α × String)} {key : α}
    {name : String} (found : list.lookup key = some name) : (key, name) ∈ list := by
  obtain ⟨before, after, rfl, -⟩ := List.lookup_eq_some_iff.1 found
  exact List.mem_append_right _ List.mem_cons_self

/-- A free name is not reserved. -/
theorem Apart.free (apart : names.Apart reserved) {sequence : Nat → String}
    (different : Function.Injective sequence) : names.free sequence ∉ reserved := by
  intro member
  have taken := apart.taken member
  rw [isTaken_free names different] at taken
  cases taken

/-- The names with one more taken, which was free. -/
theorem Apart.reserve (apart : names.Apart reserved) (name : String) :
    (names.reserve name).Apart reserved where
  taken := by
    intro other member
    rw [isTaken_reserve, apart.taken member, Bool.or_true]
  counters := apart.counters
  temporaries := apart.temporaries

theorem Apart.counter (apart : names.Apart reserved) (id : NodeId) :
    (names.counter id).1 ∉ reserved ∧ (names.counter id).2.Apart reserved := by
  rw [Names.counter]
  split
  next name found =>
    exact ⟨apart.counters (mem_of_lookup found), apart⟩
  next =>
    have free := apart.free counterName_injective
    have apart' := apart.reserve (names.free counterName)
    refine ⟨free, apart'.taken, ?_, apart'.temporaries⟩
    intro other name member
    rcases List.mem_cons.1 member with same | old
    · cases same
      exact free
    · exact apart.counters old

theorem Apart.temporary (apart : names.Apart reserved) (id : NodeId) (hint : String) :
    (names.temporary id hint).1 ∉ reserved ∧ (names.temporary id hint).2.Apart reserved := by
  rw [Names.temporary]
  split
  next name found =>
    exact ⟨apart.temporaries (mem_of_lookup found), apart⟩
  next =>
    have free := apart.free (temporaryName_injective hint)
    have apart' := apart.reserve (names.free (temporaryName hint))
    refine ⟨free, apart'.taken, apart'.counters, ?_⟩
    intro other name member
    rcases List.mem_cons.1 member with same | old
    · cases same
      exact free
    · exact apart.temporaries old

end ScriptToC.Names
