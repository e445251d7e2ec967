import Std.Data.TreeMap
import ScriptToC.CType.Basic

/-!
# Tables of types

A table gives types to the nodes of a program. A node has at most one type: a later entry for the
same node takes the place of the earlier one (`find?_insert`), so that the size of a table is the
number of nodes that have a type (`size_insert`).
-/

set_option autoImplicit false

namespace ScriptToC

/-- The identity of a node of a program. -/
abbrev NodeId := Nat

/-- The types of some nodes, at most one for each node. -/
structure TypeTable where
  types : Std.TreeMap NodeId CType := {}

namespace TypeTable

/-- The type of a node, if it has one. -/
def find? (table : TypeTable) (id : NodeId) : Option CType :=
  table.types[id]?

/-- The table in which `id` has the given type and every other node the type it had. -/
def insert (table : TypeTable) (id : NodeId) (type : CType) : TypeTable where
  types := table.types.insert id type

/-- The table with the types of all nodes changed in place. -/
def map (table : TypeTable) (change : NodeId → CType → CType) : TypeTable where
  types := table.types.map change

/-- The table in which an array at `id` is on the heap, and whether there was one. -/
def makeDynamic (table : TypeTable) (id : NodeId) : Bool × TypeTable :=
  match table.find? id with
  | some (.array element capacity _) => (true, table.insert id (.array element capacity true))
  | _ => (false, table)

/-- The number of nodes that have a type. -/
def size (table : TypeTable) : Nat :=
  table.types.size

/-- No node has a type. -/
def isEmpty (table : TypeTable) : Bool :=
  table.types.isEmpty

/-- The empty table gives no type. -/
@[simp] theorem find?_empty (id : NodeId) : ({} : TypeTable).find? id = none := rfl

/-- An entry is found at its node, and the other nodes keep their types. -/
theorem find?_insert (table : TypeTable) (id other : NodeId) (type : CType) :
    (table.insert id type).find? other = if other = id then some type else table.find? other := by
  simp only [find?, insert, Std.TreeMap.getElem?_insert, Std.LawfulEqCmp.compare_eq_iff_eq,
    eq_comm (a := id)]

/-- A change of all types changes the type of each node. -/
theorem find?_map (table : TypeTable) (change : NodeId → CType → CType) (id : NodeId) :
    (table.map change).find? id = (table.find? id).map (change id) :=
  Std.TreeMap.getElem?_map

/-- A table grows by an entry for a node that had none. -/
theorem size_insert (table : TypeTable) (id : NodeId) (type : CType) :
    (table.insert id type).size =
      if (table.find? id).isSome then table.size else table.size + 1 := by
  rw [size, insert, Std.TreeMap.size_insert, find?, size]
  simp

end TypeTable

end ScriptToC
