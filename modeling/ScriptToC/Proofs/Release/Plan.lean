import Mathlib.Data.List.Pairwise
import ScriptToC.Proofs.Emission.Evolution

/-!
# What a plan releases

The releases where a function is left are those of the owned locals of the enclosing scopes, without
the one that is returned (`mem_releases?`). As a scope declares a name once, a plan frees a name
twice exactly if two different enclosing scopes own it (`releases_nodup_iff`): an inner local
does not hide the outer one from the plan.
-/

set_option autoImplicit false

namespace ScriptToC.ScopeTree

/-- A scope owns a name if it declares a local of that name with memory on the heap. -/
def Owns (tree : ScopeTree) (scope : ScopeId) (name : String) : Prop :=
  ∃ locals, tree.locals? scope = some locals ∧
    ∃ x ∈ locals, x.name = name ∧ x.type.isHeapOwned = true

/-- The names that a plan takes from one scope. -/
def plannedNames (tree : ScopeTree) (returned : Option String) (scope : ScopeId) : List String :=
  ((((tree.locals? scope).getD []).filter fun x => returned ≠ some x.name).filterMap
    Variable.release?).map (·.name)

theorem mem_plannedNames {tree : ScopeTree} {returned : Option String} {scope : ScopeId}
    {name : String} :
    name ∈ tree.plannedNames returned scope ↔ tree.Owns scope name ∧ returned ≠ some name := by
  simp only [plannedNames, List.mem_map, List.mem_filterMap, List.mem_filter, decide_eq_true_eq]
  constructor
  · rintro ⟨release, ⟨x, ⟨member, kept⟩, made⟩, rfl⟩
    have same := Variable.name_of_release? made
    have owned : x.type.isHeapOwned = true := by rw [← x.isSome_release?, made]; rfl
    cases found : tree.locals? scope with
    | none =>
      rw [found] at member
      cases member
    | some locals =>
      rw [found] at member
      exact ⟨⟨locals, found, x, member, same.symm, owned⟩, same ▸ kept⟩
  · rintro ⟨⟨locals, found, x, member, rfl, owned⟩, kept⟩
    obtain ⟨release, made⟩ := Option.isSome_iff_exists.1 (x.isSome_release?.trans owned)
    refine ⟨release, ⟨x, ⟨?_, kept⟩, made⟩, Variable.name_of_release? made⟩
    rw [found]
    exact member

/-- One scope gives a plan each name once, as its locals have different names. -/
theorem WellFormed.nodup_plannedNames {tree : ScopeTree} (wf : tree.WellFormed)
    (returned : Option String) (scope : ScopeId) : (tree.plannedNames returned scope).Nodup := by
  rw [plannedNames]
  cases found : tree.locals? scope with
  | none => exact List.nodup_nil
  | some locals =>
    obtain ⟨_, isScope, rfl⟩ := locals?_eq_some.1 found
    rw [Option.getD_some, List.map_filterMap, List.nodup_iff_pairwise_ne, List.pairwise_filterMap]
    refine List.Pairwise.filter _ ((List.pairwise_map.1 (wf.names_nodup isScope)).imp ?_)
    intro x y different name isName name' isName'
    obtain ⟨release, made, rfl⟩ := Option.map_eq_some_iff.1 isName
    obtain ⟨release', made', rfl⟩ := Option.map_eq_some_iff.1 isName'
    rw [Variable.name_of_release? made, Variable.name_of_release? made']
    exact different

theorem locals?_of_encloses {tree : ScopeTree} {outer inner : ScopeId}
    (encloses : tree.Encloses outer inner) : ∃ locals, tree.locals? outer = some locals := by
  induction encloses with
  | self isScope =>
    obtain ⟨scope, found⟩ := Option.isSome_iff_exists.1 ((find?_isSome_iff tree _).2 isScope)
    exact ⟨scope.locals, locals?_eq_some.2 ⟨scope, found, rfl⟩⟩
  | parent _ _ ih => exact ih

theorem mapM_eq_some_map {ids : List ScopeId} {ask : ScopeId → Option (List Variable)}
    {answer : ScopeId → List Variable} (each : ∀ id ∈ ids, ask id = some (answer id)) :
    ids.mapM ask = some (ids.map answer) := by
  induction ids with
  | nil => rfl
  | cons id rest ih =>
    have others : rest.mapM ask = some (rest.map answer) := by
      apply ih
      intro other member
      exact each other (List.mem_cons_of_mem id member)
    rw [List.mapM_cons, each id List.mem_cons_self, others]
    rfl

/-- The locals of some scopes, one scope after another. -/
def localsAlong (tree : ScopeTree) (chain : List ScopeId) : List Variable :=
  chain.flatMap fun scope => (tree.locals? scope).getD []

/-- The plan of a scope exists. It goes through the locals on the way out of the scope. -/
theorem WellFormed.releases?_along {tree : ScopeTree} (wf : tree.WellFormed) {id : ScopeId}
    {scope : Scope} (found : tree.find? id = some scope) (returned : Option String) :
    ∃ chain, tree.LeadsOut id scope.func chain ∧ tree.chain? id = some chain ∧
      tree.releases? id returned = some (((tree.localsAlong chain).filter
        fun x => returned ≠ some x.name).filterMap Variable.release?) := by
  obtain ⟨chain, out, climbs⟩ := wf.chainFrom_leadsOut found
  have run : tree.chain? id = some chain := by
    rw [chain?, func?_eq_some.2 ⟨scope, found, rfl⟩, Option.bind_some]
    exact climbs tree.size (Nat.le_of_lt (lt_size_of_find? found))
  have locals : chain.mapM tree.locals? =
      some (chain.map fun scope => (tree.locals? scope).getD []) := by
    apply mapM_eq_some_map
    intro outer inside
    obtain ⟨locals, found⟩ := locals?_of_encloses ((wf.mem_iff_encloses out).1 inside)
    rw [found, Option.getD_some]
  refine ⟨chain, out, run, ?_⟩
  simp only [releases?, run, locals, Option.bind_eq_bind, Option.bind_some, Option.pure_def]
  rfl

/-- The plan of a scope takes the planned names of the enclosing scopes, each scope once. -/
theorem WellFormed.releases?_eq_some {tree : ScopeTree} (wf : tree.WellFormed) {id : ScopeId}
    (isScope : id < tree.size) (returned : Option String) :
    ∃ (releases : List Release) (chain : List ScopeId), tree.releases? id returned = some releases ∧
      releases.map (·.name) = chain.flatMap (tree.plannedNames returned) ∧
      (∀ outer, outer ∈ chain ↔ tree.Encloses outer id) ∧ chain.Nodup := by
  obtain ⟨scope, found⟩ := Option.isSome_iff_exists.1 ((find?_isSome_iff tree id).2 isScope)
  obtain ⟨chain, out, -, plan⟩ := wf.releases?_along found returned
  refine ⟨_, chain, plan, ?_, fun outer => wf.mem_iff_encloses out, out.nodup⟩
  rw [localsAlong, List.filter_flatMap, List.filterMap_flatMap, List.map_flatMap]
  rfl

/-- A plan releases the owned names of the enclosing scopes, except the returned one. -/
theorem WellFormed.mem_releases? {tree : ScopeTree} (wf : tree.WellFormed) {id : ScopeId}
    {returned : Option String} {releases : List Release}
    (plan : tree.releases? id returned = some releases) (name : String) :
    name ∈ releases.map (·.name) ↔
      (∃ outer, tree.Encloses outer id ∧ tree.Owns outer name) ∧ returned ≠ some name := by
  have isScope : id < tree.size := by
    cases found : tree.find? id with
    | none => simp [releases?, chain?, func?, found] at plan
    | some scope => exact lt_size_of_find? found
  obtain ⟨_, chain, plan', names, mem, -⟩ := wf.releases?_eq_some isScope returned
  rw [plan] at plan'
  cases plan'
  rw [names, List.mem_flatMap]
  simp only [mem, mem_plannedNames]
  constructor
  · rintro ⟨outer, encloses, owns, kept⟩
    exact ⟨⟨outer, encloses, owns⟩, kept⟩
  · rintro ⟨⟨outer, encloses, owns⟩, kept⟩
    exact ⟨outer, encloses, owns, kept⟩

/-- **What makes a plan free a name once.** The plan of a scope exists, and its releases name
different variables exactly if no two of the enclosing scopes own the same name, the returned one
aside. -/
theorem releases_nodup_iff {tree : ScopeTree} {id : ScopeId} (reachable : tree.Reachable)
    (isScope : id < tree.size) (returned : Option String) :
    ∃ releases : List Release, tree.releases? id returned = some releases ∧
      ((releases.map (·.name)).Nodup ↔
        ∀ name, returned ≠ some name → ∀ outer inner, tree.Encloses outer id →
          tree.Encloses inner id → tree.Owns outer name → tree.Owns inner name →
            outer = inner) := by
  have wf := reachable.wellFormed
  obtain ⟨releases, chain, plan, names, mem, nodup⟩ := wf.releases?_eq_some isScope returned
  refine ⟨releases, plan, ?_⟩
  rw [names, List.nodup_flatMap]
  constructor
  · rintro ⟨-, disjoint⟩ name kept outer inner outside inside owns owns'
    by_contra different
    -- Disjointness is symmetric, so it does not matter which of the two scopes comes first.
    have symmetric : Std.Symm (Function.onFun List.Disjoint (tree.plannedNames returned)) := by
      constructor
      intro a b apart name first second
      exact apart second first
    have apart := disjoint.forall ((mem outer).2 outside) ((mem inner).2 inside) different
    exact apart (mem_plannedNames.2 ⟨owns, kept⟩) (mem_plannedNames.2 ⟨owns', kept⟩)
  · intro unique
    constructor
    · intro scope _
      exact wf.nodup_plannedNames returned scope
    · apply nodup.pairwise_of_forall_ne
      intro a inA b inB different name first second
      apply different
      obtain ⟨owns, kept⟩ := mem_plannedNames.1 first
      obtain ⟨owns', -⟩ := mem_plannedNames.1 second
      exact unique name kept a b ((mem a).1 inA) ((mem b).1 inB) owns owns'

/-- A function that owns a dynamic array. -/
def owning : ScopeTree :=
  ⟨[⟨none, 0, [⟨"xs", .dynamicArray .number⟩]⟩]⟩

theorem reachable_owning : owning.Reachable := by
  have added : (newFunction {}).2.add? 0 ⟨"xs", .dynamicArray .number⟩ = some (true, owning) := rfl
  exact .operation (.operation .empty (.function {})) (.add added)

/-- The function, and a block in it that declares a dynamic array under the same name. -/
def shadowing : ScopeTree :=
  ⟨[⟨none, 0, [⟨"xs", .dynamicArray .number⟩]⟩, ⟨some 0, 0, [⟨"xs", .dynamicArray .number⟩]⟩]⟩

theorem reachable_shadowing : shadowing.Reachable := by
  have made : owning.newChild? 0 = some (1, ⟨owning.scopes ++ [⟨some 0, 0, []⟩]⟩) := rfl
  have added : ScopeTree.add? ⟨owning.scopes ++ [⟨some 0, 0, []⟩]⟩ 1
      ⟨"xs", .dynamicArray .number⟩ = some (true, shadowing) := rfl
  exact .operation (.operation reachable_owning (.child made)) (.add added)

/-- If the array is returned, nothing is released. -/
theorem releases_nodup_iff_shadowing :
    shadowing.Reachable ∧ 1 < shadowing.size ∧
      ∃ releases : List Release, shadowing.releases? 1 (some "xs") = some releases ∧
        ((releases.map (·.name)).Nodup ↔
          ∀ name, some "xs" ≠ some name → ∀ outer inner, shadowing.Encloses outer 1 →
            shadowing.Encloses inner 1 → shadowing.Owns outer name → shadowing.Owns inner name →
              outer = inner) :=
  ⟨reachable_shadowing, by decide, releases_nodup_iff reachable_shadowing (by decide) (some "xs")⟩

/-- Otherwise the name is released twice: the inner array is freed again in place of the outer. -/
theorem shadowing_releases_twice :
    shadowing.Reachable ∧ ∃ releases : List Release, shadowing.releases? 1 none = some releases ∧
      releases.map (·.name) = ["xs", "xs"] ∧ ¬ (releases.map (·.name)).Nodup :=
  ⟨reachable_shadowing, _, rfl, rfl, by decide⟩

end ScriptToC.ScopeTree
