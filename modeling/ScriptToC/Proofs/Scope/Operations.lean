import Mathlib.Logic.Relation
import ScriptToC.Scope

/-!
# What the operations on scopes change

Each operation changes one scope or adds one, and every other scope stays as it was. A tree evolves
into another if a row of operations leads there. The scopes that exist keep their parents and their
functions while a tree evolves, and no scope disappears.
-/

set_option autoImplicit false

namespace ScriptToC.ScopeTree

/-! ## Scopes after an operation -/

theorem find?_newFunction (tree : ScopeTree) (id : ScopeId) :
    tree.newFunction.2.find? id =
      if id = tree.size then some ⟨none, tree.size, []⟩ else tree.find? id := by
  simp only [newFunction, find?, size, List.getElem?_append, List.getElem?_cons,
    List.getElem?_nil]
  grind

/-- A new child is numbered after all other scopes and belongs to the function of its parent. -/
theorem newChild?_eq_some {tree later : ScopeTree} {parent id : ScopeId} :
    tree.newChild? parent = some (id, later) ↔
      ∃ scope, tree.find? parent = some scope ∧ id = tree.size ∧
        later = ⟨tree.scopes ++ [⟨some parent, scope.func, []⟩]⟩ := by
  simp only [newChild?, Option.map_eq_some_iff, Prod.mk.injEq]
  constructor
  · rintro ⟨scope, found, rfl, rfl⟩
    exact ⟨scope, found, rfl, rfl⟩
  · rintro ⟨scope, found, rfl, rfl⟩
    exact ⟨scope, found, rfl, rfl⟩

theorem find?_push (tree : ScopeTree) (scope : Scope) (id : ScopeId) :
    (ScopeTree.mk (tree.scopes ++ [scope])).find? id =
      if id = tree.size then some scope else tree.find? id := by
  simp only [find?, size, List.getElem?_append, List.getElem?_cons, List.getElem?_nil]
  grind

@[simp] theorem size_push (tree : ScopeTree) (scope : Scope) :
    (ScopeTree.mk (tree.scopes ++ [scope])).size = tree.size + 1 := by
  simp [size]

@[simp] theorem size_setLocals (tree : ScopeTree) (id : ScopeId) (locals : List Variable) :
    (tree.setLocals id locals).size = tree.size := by
  simp [setLocals, size]

theorem find?_setLocals (tree : ScopeTree) (id other : ScopeId) (locals : List Variable) :
    (tree.setLocals id locals).find? other =
      if other = id then (tree.find? other).map fun scope => { scope with locals }
      else tree.find? other := by
  simp only [setLocals, find?, List.getElem?_modify]
  grind

/-- A scope exists exactly if its number is smaller than the number of scopes. -/
theorem find?_isSome_iff (tree : ScopeTree) (id : ScopeId) :
    (tree.find? id).isSome ↔ id < tree.size := by
  simp [find?, size]

theorem lt_size_of_find? {tree : ScopeTree} {id : ScopeId} {scope : Scope}
    (found : tree.find? id = some scope) : id < tree.size := by
  rw [← find?_isSome_iff, found]
  rfl

theorem add?_eq_some {tree later : ScopeTree} {id : ScopeId} {x : Variable} {new : Bool} :
    tree.add? id x = some (new, later) ↔
      ∃ locals, tree.locals? id = some locals ∧ new = !locals.any (·.name == x.name) ∧
        later = tree.setLocals id (declare locals x) := by
  simp only [add?, Option.map_eq_some_iff, Prod.mk.injEq]
  constructor
  · rintro ⟨locals, found, rfl, rfl⟩
    exact ⟨locals, found, rfl, rfl⟩
  · rintro ⟨locals, found, rfl, rfl⟩
    exact ⟨locals, found, rfl, rfl⟩

theorem drain?_eq_some {tree later : ScopeTree} {id : ScopeId} {moved : List Variable} :
    tree.drain? id = some (moved, later) ↔
      tree.locals? id = some moved ∧ later = tree.setLocals id [] := by
  simp only [drain?, Option.map_eq_some_iff, Prod.mk.injEq]
  constructor
  · rintro ⟨locals, found, rfl, rfl⟩
    exact ⟨found, rfl⟩
  · rintro ⟨found, rfl⟩
    exact ⟨moved, found, rfl, rfl⟩

/-! ## Evolution -/

/-- One operation on the scopes. -/
inductive Step : ScopeTree → ScopeTree → Prop
  | function (tree : ScopeTree) : Step tree tree.newFunction.2
  | child {tree later : ScopeTree} {parent id : ScopeId}
      (made : tree.newChild? parent = some (id, later)) : Step tree later
  | add {tree later : ScopeTree} {id : ScopeId} {x : Variable} {new : Bool}
      (added : tree.add? id x = some (new, later)) : Step tree later
  | drain {tree later : ScopeTree} {id : ScopeId} {moved : List Variable}
      (drained : tree.drain? id = some (moved, later)) : Step tree later

/-- Finitely many operations on the scopes. -/
abbrev Evolves : ScopeTree → ScopeTree → Prop :=
  Relation.ReflTransGen Step

/-- Declaring several locals is a row of operations. -/
theorem evolves_of_extend? {tree later : ScopeTree} {id : ScopeId} {xs : List Variable}
    (extended : tree.extend? id xs = some later) : Evolves tree later := by
  induction xs generalizing tree with
  | nil =>
    cases extended
    exact .refl
  | cons x rest ih =>
    simp only [extend?, Option.bind_eq_bind, Option.bind_eq_some_iff] at extended
    obtain ⟨⟨new, middle⟩, added, extended⟩ := extended
    exact .head (.add added) (ih extended)

/-- An operation keeps the parent and the function of a scope that exists. -/
theorem Step.keeps {tree later : ScopeTree} (step : Step tree later) {id : ScopeId} {scope : Scope}
    (found : tree.find? id = some scope) :
    ∃ scope', later.find? id = some scope' ∧ scope'.parent = scope.parent ∧
      scope'.func = scope.func := by
  have small := lt_size_of_find? found
  cases step with
  | function =>
    refine ⟨scope, ?_, rfl, rfl⟩
    rw [find?_newFunction, if_neg (Nat.ne_of_lt small), found]
  | child made =>
    obtain ⟨_, _, rfl, rfl⟩ := newChild?_eq_some.1 made
    refine ⟨scope, ?_, rfl, rfl⟩
    rw [find?_push, if_neg (Nat.ne_of_lt small), found]
  | add added =>
    obtain ⟨_, _, _, rfl⟩ := add?_eq_some.1 added
    rw [find?_setLocals, found]
    split <;> exact ⟨_, rfl, rfl, rfl⟩
  | drain drained =>
    obtain ⟨_, rfl⟩ := drain?_eq_some.1 drained
    rw [find?_setLocals, found]
    split <;> exact ⟨_, rfl, rfl, rfl⟩

/-- The parent and the function of a scope never change. -/
theorem Evolves.keeps {tree later : ScopeTree} (evolves : Evolves tree later) {id : ScopeId}
    {scope : Scope} (found : tree.find? id = some scope) :
    ∃ scope', later.find? id = some scope' ∧ scope'.parent = scope.parent ∧
      scope'.func = scope.func := by
  induction evolves with
  | refl => exact ⟨scope, found, rfl, rfl⟩
  | tail _ step ih =>
    obtain ⟨middle, foundMiddle, parent, func⟩ := ih
    obtain ⟨last, foundLast, parent', func'⟩ := step.keeps foundMiddle
    exact ⟨last, foundLast, parent'.trans parent, func'.trans func⟩

end ScriptToC.ScopeTree
