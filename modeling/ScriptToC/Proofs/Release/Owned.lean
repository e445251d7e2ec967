import ScriptToC.Proofs.Release.Plan

/-!
# A plan is the owned part of the way out

On the way from a scope to its function scope a plan meets locals, the innermost scope first and in
each scope in the order of their declaration. It releases those that own heap memory, without the
returned one, and nothing else (`releases?_eq_owned`). What a type owns is said twice, once as a
property of types and once by the calls that free it; a plan exists because the two agree
(`forall₂_filterMap_release?`).

A plan reads nothing but the links of the scopes and the locals on the way out. Other locals, those
of other functions among them, make no difference to it (`SameLinks.releases?_eq`).
-/

set_option autoImplicit false

namespace ScriptToC.ScopeTree

/-! ## Owned locals -/

/-- The locals of some scopes that own heap memory, except the one whose value is returned. -/
def ownedAlong (tree : ScopeTree) (chain : List ScopeId) (returned : Option String) :
    List Variable :=
  (tree.localsAlong chain).filter fun x => x.type.isHeapOwned && decide (returned ≠ some x.name)

/-- Of the locals, those that own heap memory have a release, each its own. -/
theorem forall₂_filterMap_release? (locals : List Variable) :
    List.Forall₂ (fun x release => x.release? = some release ∧ release.name = x.name)
      (locals.filter fun x => x.type.isHeapOwned) (locals.filterMap Variable.release?) := by
  induction locals with
  | nil => exact .nil
  | cons x rest ih =>
    have owned := x.isSome_release?
    cases made : x.release? with
    | none =>
      rw [made, Option.isSome_none] at owned
      rwa [List.filter_cons, if_neg (by simp [← owned]), List.filterMap_cons_none made]
    | some release =>
      rw [made, Option.isSome_some] at owned
      rw [List.filter_cons, if_pos owned.symm, List.filterMap_cons_some made]
      exact .cons ⟨made, Variable.name_of_release? made⟩ ih

/-! ## Trees with the same links -/

/-- Two trees have the same scopes, with the same parents and functions. Their locals may differ. -/
def SameLinks (tree later : ScopeTree) : Prop :=
  ∀ id, later.parent? id = tree.parent? id ∧ later.func? id = tree.func? id

theorem mapM_locals?_congr {tree later : ScopeTree} {ids : List ScopeId}
    (same : ∀ id ∈ ids, later.locals? id = tree.locals? id) :
    ids.mapM later.locals? = ids.mapM tree.locals? := by
  induction ids with
  | nil => rfl
  | cons id rest ih =>
    have others := ih fun other member => same other (List.mem_cons_of_mem id member)
    rw [List.mapM_cons, List.mapM_cons, same id List.mem_cons_self, others]

namespace SameLinks

variable {tree later : ScopeTree} (same : tree.SameLinks later)
include same

theorem size_eq : later.size = tree.size := by
  have exists_iff : ∀ id, id < later.size ↔ id < tree.size := by
    intro id
    have links := congrArg Option.isSome (same id).1
    rw [parent?, parent?, Option.isSome_map, Option.isSome_map] at links
    rw [← find?_isSome_iff, ← find?_isSome_iff, links]
  exact Nat.le_antisymm (Nat.le_of_not_lt fun lt => Nat.lt_irrefl _ ((exists_iff _).1 lt))
    (Nat.le_of_not_lt fun lt => Nat.lt_irrefl _ ((exists_iff _).2 lt))

theorem chainFrom_eq (func : ScopeId) (fuel : Nat) (id : ScopeId) :
    later.chainFrom func fuel id = tree.chainFrom func fuel id := by
  induction fuel generalizing id with
  | zero => rfl
  | succ fuel ih =>
    rw [chainFrom, chainFrom, (same id).1]
    simp only [ih]

theorem chain?_eq (id : ScopeId) : later.chain? id = tree.chain? id := by
  rw [chain?, chain?, (same id).2, same.size_eq]
  exact congrArg _ (funext fun func => same.chainFrom_eq func tree.size id)

/-- A plan depends on the links and on the locals on the way out. -/
theorem releases?_eq {id : ScopeId} {chain : List ScopeId} (way : tree.chain? id = some chain)
    (locals : ∀ outer ∈ chain, later.locals? outer = tree.locals? outer)
    (returned : Option String) : later.releases? id returned = tree.releases? id returned := by
  simp only [releases?, same.chain?_eq, way, Option.bind_eq_bind, Option.bind_some,
    mapM_locals?_congr locals]

end SameLinks

/-- Other locals in one scope leave the links as they are. -/
theorem sameLinks_setLocals (tree : ScopeTree) (id : ScopeId) (locals : List Variable) :
    tree.SameLinks (tree.setLocals id locals) := by
  intro other
  rw [parent?, parent?, func?, func?, find?_setLocals]
  split
  · rw [Option.map_map, Option.map_map]
    exact ⟨rfl, rfl⟩
  · exact ⟨rfl, rfl⟩

theorem locals?_setLocals_of_ne (tree : ScopeTree) {id other : ScopeId} (different : other ≠ id)
    (locals : List Variable) : (tree.setLocals id locals).locals? other = tree.locals? other := by
  rw [locals?, find?_setLocals, if_neg different, ← locals?]

/-! ## Plans -/

/-- **What a plan consists of.** The way out of a scope leads along the parents to its function
scope, through no scope of another function. The plan of the scope is a row of releases, one for
each local on this way that owns heap memory and is not the returned one: the innermost scope comes
first, and in each scope the order is that of declaration. The plan is the same whatever locals are
put into a scope that is not on the way, and in any other tree that has the same links and the same
locals on the way. -/
theorem releases?_eq_owned {tree : ScopeTree} {id : ScopeId} (reachable : tree.Reachable)
    (isScope : id < tree.size) (returned : Option String) :
    ∃ (func : ScopeId) (chain : List ScopeId) (releases : List Release),
      tree.func? id = some func ∧ tree.LeadsOut id func chain ∧
      tree.releases? id returned = some releases ∧
      List.Forall₂ (fun x release => x.release? = some release ∧ release.name = x.name)
        (tree.ownedAlong chain returned) releases ∧
      (∀ other, tree.func? other ≠ some func → other ∉ chain) ∧
      (∀ other ∉ chain, ∀ locals : List Variable,
        (tree.setLocals other locals).releases? id returned = some releases) ∧
      ∀ later : ScopeTree, tree.SameLinks later →
        (∀ outer ∈ chain, later.locals? outer = tree.locals? outer) →
          later.releases? id returned = some releases := by
  have wf := reachable.wellFormed
  obtain ⟨scope, found⟩ := Option.isSome_iff_exists.1 ((find?_isSome_iff tree id).2 isScope)
  obtain ⟨chain, out, way, plan⟩ := wf.releases?_along found returned
  have unchanged : ∀ later : ScopeTree, tree.SameLinks later →
      (∀ outer ∈ chain, later.locals? outer = tree.locals? outer) →
        later.releases? id returned = tree.releases? id returned :=
    fun later same locals => same.releases?_eq way locals returned
  rw [plan] at unchanged
  refine ⟨scope.func, chain, _, func?_eq_some.2 ⟨scope, found, rfl⟩, out, plan, ?_, ?_, ?_,
    unchanged⟩
  · have each := forall₂_filterMap_release?
      ((tree.localsAlong chain).filter fun x => returned ≠ some x.name)
    rwa [List.filter_filter] at each
  · intro other outside inside
    exact outside (out.inside other inside)
  · intro other outside locals
    apply unchanged _ (tree.sameLinks_setLocals other locals)
    intro outer inside
    apply tree.locals?_setLocals_of_ne
    rintro rfl
    exact outside inside

/-- A function that owns an array, with a block that owns another one and a dictionary, and a second
function that owns a structure. -/
def twoFunctions : ScopeTree :=
  ⟨[⟨none, 0, [⟨"xs", .dynamicArray .number⟩]⟩,
    ⟨some 0, 0, [⟨"xs", .dynamicArray .number⟩, ⟨"n", .number⟩, ⟨"d", .dict .string⟩]⟩,
    ⟨none, 2, [⟨"p", .struct "Point"⟩]⟩]⟩

theorem reachable_twoFunctions : twoFunctions.Reachable := by
  have number : shadowing.add? 1 ⟨"n", .number⟩ = some (true, _) := rfl
  have one := Reachable.operation reachable_shadowing (.add number)
  have two := Reachable.operation one
    (.add (show add? _ 1 ⟨"d", .dict .string⟩ = some (true, _) from rfl))
  have three := Reachable.operation two (.function _)
  exact .operation three (.add (show add? _ 2 ⟨"p", .struct "Point"⟩ = some (true, _) from rfl))

/-- Where the dictionary is returned from the block, the two arrays are released, the inner one
first, whatever the second function owns. -/
theorem releases?_eq_owned_twoFunctions :
    twoFunctions.Reachable ∧ 1 < twoFunctions.size ∧
      ∃ (func : ScopeId) (chain : List ScopeId) (releases : List Release),
        twoFunctions.LeadsOut 1 func chain ∧
        twoFunctions.releases? 1 (some "d") = some releases ∧
        releases.map (·.name) = ["xs", "xs"] ∧
        ∀ locals : List Variable,
          (twoFunctions.setLocals 2 locals).releases? 1 (some "d") = some releases := by
  obtain ⟨func, chain, releases, own, out, plan, -, others, off, -⟩ :=
    @releases?_eq_owned twoFunctions 1 reachable_twoFunctions (by decide) (some "d")
  cases own
  cases plan
  exact ⟨reachable_twoFunctions, by decide, _, chain, _, out, rfl, rfl,
    off 2 (others 2 (by decide))⟩

end ScriptToC.ScopeTree
