import ScriptToC.Proofs.Emission.Rules
import ScriptToC.Proofs.Release.Plan

/-!
# What a return reads

The releases of a `return` are printed before it, so the returned expression must not read what
they free. Only a returned variable is kept; every other expression reads freed memory exactly if
it mentions a name that an enclosing scope owns (`return_reads_released_iff`).
-/

set_option autoImplicit false

namespace ScriptToC

namespace Ir.Expr

mutual

/-- The identifiers that occur in an expression. -/
def names : Expr → List String
  | number _ _ | string _ _ | bool _ _ | null _ => []
  | ident _ name => [name]
  | paren _ inner => inner.names
  | array _ elements => listNames elements
  | object _ properties => propertyNames properties
  | member _ inner _ => inner.names
  | index _ inner key => inner.names ++ key.names
  | call _ callee args => callee.names ++ listNames args
  | unary _ _ arg => arg.names
  | update _ _ _ target => target.names
  | binary _ _ lhs rhs | logical _ _ lhs rhs => lhs.names ++ rhs.names
  | assign _ _ target value => target.names ++ value.names
  | conditional _ test yes no => test.names ++ yes.names ++ no.names

/-- The identifiers that occur in expressions. -/
def listNames : List Expr → List String
  | [] => []
  | e :: rest => e.names ++ listNames rest

/-- The identifiers that occur in the values of properties. -/
def propertyNames : List (String × Expr) → List String
  | [] => []
  | (_, e) :: rest => e.names ++ propertyNames rest

end

/-- In an identifier, in parentheses or not, it occurs alone. -/
theorem names_of_ident? : ∀ {e : Expr} {name : String}, e.ident? = some name → e.names = [name]
  | ident _ _, _, eq => by
    cases eq
    rfl
  | paren _ inner, _, eq => by
    rw [names]
    exact names_of_ident? (e := inner) eq

end Ir.Expr

namespace Emit

open Ir

variable {σ : Setting} {scope : ScopeId} {node : Node} {e : Expr} {w w' : Workspace} {c : CStmt}

/-- A translated `return` is the text of its expression after the releases of its plan. -/
theorem returnStmt_ok (run : stmt scope (.returnStmt node (some e)) σ w = (.ok c, w')) :
    ∃ (text : String) (releases : List Release), c = .returnStmt (some text) releases ∧
      w.scopes.releases? scope e.ident? = some releases := by
  rw [stmt] at run
  obtain ⟨text, releases, rfl, isSome, plan, -⟩ := returned_ok run
  obtain ⟨text, rfl⟩ := Option.isSome_iff_exists.1 isSome
  exact ⟨text, releases, rfl, plan⟩

/-- **What a return may read.** A translated `return` releases none of the names of its expression
exactly if it returns a variable or mentions no name that an enclosing scope owns. -/
theorem return_reads_released_iff (reachable : w.scopes.Reachable)
    (run : stmt scope (.returnStmt node (some e)) σ w = (.ok c, w')) :
    ∃ (text : String) (releases : List Release), c = .returnStmt (some text) releases ∧
      (List.Disjoint (releases.map (·.name)) e.names ↔
        e.ident?.isSome = true ∨
          ∀ name ∈ e.names, ∀ outer, w.scopes.Encloses outer scope →
            ¬ w.scopes.Owns outer name) := by
  obtain ⟨text, releases, rfl, plan⟩ := returnStmt_ok run
  refine ⟨text, releases, rfl, ?_⟩
  have released := reachable.wellFormed.mem_releases? plan
  constructor
  · intro disjoint
    cases isIdent : e.ident? with
    | some _ => exact .inl rfl
    | none =>
      right
      intro name occurs outer encloses owns
      have kept : e.ident? ≠ some name := by simp [isIdent]
      exact disjoint ((released name).2 ⟨⟨outer, encloses, owns⟩, kept⟩) occurs
  · rintro (isIdent | unowned) name isReleased occurs
    · obtain ⟨_, eq⟩ := Option.isSome_iff_exists.1 isIdent
      rw [Expr.names_of_ident? eq, List.mem_singleton] at occurs
      exact ((released name).1 isReleased).2 (occurs ▸ eq)
    · obtain ⟨⟨outer, encloses, owns⟩, -⟩ := (released name).1 isReleased
      exact unowned name occurs outer encloses owns

/-- A setting in which one identifier is a dynamic array. -/
def arraySetting : Setting :=
  ⟨fun id => if id = 5 then some (.dynamicArray .number) else none, "ts2c"⟩

/-- The workspace of a function that owns the array. -/
def owningArray : Workspace :=
  ⟨.owning, {}, {}⟩

/-- The array as a returned expression. -/
def ownedArray : Expr :=
  .ident ⟨5, ⟨7, 9⟩⟩ "xs"

/-- The length of the array as a returned expression. -/
def lengthOfArray : Expr :=
  .member ⟨4, ⟨7, 16⟩⟩ ownedArray "length"

/-- Returning the array itself releases nothing. -/
theorem return_reads_released_iff_array :
    owningArray.scopes.Reachable ∧ stmt 0 (.returnStmt ⟨2, ⟨0, 10⟩⟩ (some ownedArray))
        arraySetting owningArray = (.ok (.returnStmt (some "xs") []), owningArray) ∧
      ∃ (text : String) (releases : List Release),
        CStmt.returnStmt (some "xs") [] = .returnStmt (some text) releases ∧
        (List.Disjoint (releases.map (·.name)) ownedArray.names ↔
          ownedArray.ident?.isSome = true ∨
            ∀ name ∈ ownedArray.names, ∀ outer, owningArray.scopes.Encloses outer 0 →
              ¬ owningArray.scopes.Owns outer name) := by
  have run : stmt 0 (.returnStmt ⟨2, ⟨0, 10⟩⟩ (some ownedArray)) arraySetting owningArray =
      (.ok (.returnStmt (some "xs") []), owningArray) := rfl
  exact ⟨ScopeTree.reachable_owning, run,
    return_reads_released_iff ScopeTree.reachable_owning run⟩

/-- Returning the length of the array frees the array first. -/
theorem length_reads_released_array :
    owningArray.scopes.Reachable ∧ ∃ releases : List Release,
      stmt 0 (.returnStmt ⟨2, ⟨0, 17⟩⟩ (some lengthOfArray)) arraySetting owningArray =
          (.ok (.returnStmt (some "xs->size") releases), owningArray) ∧
        ¬ List.Disjoint (releases.map (·.name)) lengthOfArray.names := by
  refine ⟨ScopeTree.reachable_owning, _, rfl, ?_⟩
  intro disjoint
  exact disjoint (List.mem_singleton.2 rfl : "xs" ∈ ["xs"]) (List.mem_singleton.2 rfl)

end Emit

end ScriptToC
