import Std.Data.TreeSet
import ScriptToC.CType.Table

/-!
# Fresh names

A C program has names that its script does not: loop counters and temporaries. They are taken from
fixed sequences, `i` to `n`, then `i_2` to `n_2` and so on for counters, and a hint, then the hint
with a growing number for temporaries. The first name of the sequence that is not taken yet is
given out, and is taken from then on. A node that asks again gets the same name.

A search looks at one name more than are taken, so that it cannot run out of names.
-/

set_option autoImplicit false

namespace ScriptToC

/-- The names that are taken, and those that were given to nodes. -/
structure Names where
  taken : Std.TreeSet String := {}
  counters : List (NodeId × String) := []
  temporaries : List ((NodeId × String) × String) := []

namespace Names

/-- The names that loop counters start from. -/
def counterBases : List String := ["i", "j", "k", "l", "m", "n"]

/-- The counter names in order: each round goes through the bases, and rounds after the first are
numbered from two. -/
def counterName (index : Nat) : String :=
  let base := counterBases.getD (index % 6) ""
  if index < 6 then base else base ++ "_" ++ toString (index / 6 + 1)

/-- The names of a temporary in order: the hint, then the hint with a number from two on. -/
def temporaryName (hint : String) (index : Nat) : String :=
  if index = 0 then hint else hint ++ "_" ++ toString (index + 1)

/-- The first name of a sequence, from `index` on, that is not taken. The search
passes over at most `fuel` names. -/
def firstFree (taken : Std.TreeSet String) (name : Nat → String) : (fuel index : Nat) → String
  | 0, index => name index
  | fuel + 1, index =>
    if taken.contains (name index) then firstFree taken name fuel (index + 1) else name index

/-- Whether a name is taken. -/
def isTaken (names : Names) (name : String) : Bool :=
  names.taken.contains name

/-- The names with one more taken. -/
def reserve (names : Names) (name : String) : Names :=
  { names with taken := names.taken.insert name }

/-- The first free name of a sequence. -/
def free (names : Names) (sequence : Nat → String) : String :=
  firstFree names.taken sequence names.taken.size 0

/-- The loop counter of a node. -/
def counter (names : Names) (id : NodeId) : String × Names :=
  match names.counters.lookup id with
  | some name => (name, names)
  | none =>
    let name := names.free counterName
    (name, { names.reserve name with counters := (id, name) :: names.counters })

/-- The temporary of a node for one purpose. -/
def temporary (names : Names) (id : NodeId) (hint : String) : String × Names :=
  match names.temporaries.lookup (id, hint) with
  | some name => (name, names)
  | none =>
    let name := names.free (temporaryName hint)
    (name, { names.reserve name with temporaries := ((id, hint), name) :: names.temporaries })

example : (List.range 8).map counterName = ["i", "j", "k", "l", "m", "n", "i_2", "j_2"] := by
  decide +kernel

/-- Taking a name takes no other. -/
theorem isTaken_reserve (names : Names) (name other : String) :
    (names.reserve name).isTaken other = (other == name || names.isTaken other) := by
  rw [isTaken, reserve, Std.TreeSet.contains_insert, isTaken]
  by_cases same : other = name
  · simp [same]
  · simp [beq_false_of_ne same, Ne.symm same]

end Names

end ScriptToC
