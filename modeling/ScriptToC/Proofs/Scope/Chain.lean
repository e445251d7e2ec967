import Mathlib.Data.List.Chain
import Mathlib.Data.List.Nodup
import ScriptToC.Proofs.Scope.Operations

/-!
# The scopes around a scope

A tree is well formed if a scope that has a parent comes after it and belongs to the same function,
if a scope without a parent is its own function, and if no scope declares a name twice. The empty
tree is well formed, and the operations keep a tree so.

In a well-formed tree the way out of a scope ends at its function scope (`LeadsOut`), so the chain
of a scope exists, and it consists of the scopes that enclose the scope, each once.
-/

set_option autoImplicit false

namespace ScriptToC.ScopeTree

/-- The tree is built as the operations build it. -/
structure WellFormed (tree : ScopeTree) : Prop where
  parent_lt : ∀ {id parent : ScopeId} {scope : Scope}, tree.find? id = some scope →
    scope.parent = some parent → parent < id
  func_parent : ∀ {id parent : ScopeId} {scope : Scope}, tree.find? id = some scope →
    scope.parent = some parent → ∃ outer, tree.find? parent = some outer ∧ outer.func = scope.func
  func_root : ∀ {id : ScopeId} {scope : Scope}, tree.find? id = some scope →
    scope.parent = none → scope.func = id
  names_nodup : ∀ {id : ScopeId} {scope : Scope}, tree.find? id = some scope →
    (scope.locals.map (·.name)).Nodup

theorem wellFormed_empty : WellFormed {} := by
  constructor <;> simp [find?]

/-! ## The operations keep a tree well formed -/

/-- Declaring keeps the names of a scope distinct. -/
theorem nodup_declare {locals : List Variable} (x : Variable)
    (nodup : (locals.map (·.name)).Nodup) : ((declare locals x).map (·.name)).Nodup := by
  rw [declare]
  split
  · exact nodup
  next new =>
    rw [List.map_append, List.nodup_append]
    refine ⟨nodup, List.nodup_singleton _, ?_⟩
    rintro name old _ fresh rfl
    simp only [List.any_eq_true, not_exists, not_and, beq_iff_eq] at new
    simp only [List.map_cons, List.map_nil, List.mem_singleton] at fresh
    obtain ⟨y, member, rfl⟩ := List.mem_map.1 old
    exact new y member fresh

theorem WellFormed.push {tree : ScopeTree} {scope : Scope} (wf : tree.WellFormed)
    (noLocals : scope.locals = [])
    (inside : ∀ parent, scope.parent = some parent →
      ∃ outer, tree.find? parent = some outer ∧ outer.func = scope.func)
    (root : scope.parent = none → scope.func = tree.size) :
    WellFormed ⟨tree.scopes ++ [scope]⟩ where
  parent_lt := by
    intro id parent found lookup isParent
    rw [find?_push] at lookup
    split at lookup
    next last =>
      cases lookup
      obtain ⟨_, outer, _⟩ := inside parent isParent
      exact last ▸ lt_size_of_find? outer
    next => exact wf.parent_lt lookup isParent
  func_parent := by
    intro id parent found lookup isParent
    rw [find?_push] at lookup
    obtain ⟨outer, isOuter, func⟩ : ∃ outer, tree.find? parent = some outer ∧
        outer.func = found.func := by
      split at lookup
      next =>
        cases lookup
        exact inside parent isParent
      next => exact wf.func_parent lookup isParent
    refine ⟨outer, ?_, func⟩
    rw [find?_push, if_neg (Nat.ne_of_lt (lt_size_of_find? isOuter)), isOuter]
  func_root := by
    intro id found lookup isRoot
    rw [find?_push] at lookup
    split at lookup
    next last =>
      cases lookup
      exact (root isRoot).trans last.symm
    next => exact wf.func_root lookup isRoot
  names_nodup := by
    intro id found lookup
    rw [find?_push] at lookup
    split at lookup
    next =>
      cases lookup
      rw [noLocals]
      exact List.nodup_nil
    next => exact wf.names_nodup lookup

theorem WellFormed.setLocals {tree : ScopeTree} (wf : tree.WellFormed) {id : ScopeId}
    {locals : List Variable} (nodup : (locals.map (·.name)).Nodup) :
    (tree.setLocals id locals).WellFormed := by
  -- Every scope is an old one, but for its locals.
  have old : ∀ {other : ScopeId} {scope : Scope},
      (tree.setLocals id locals).find? other = some scope →
      ∃ before, tree.find? other = some before ∧ before.parent = scope.parent ∧
        before.func = scope.func ∧ (scope.locals = locals ∨ scope.locals = before.locals) := by
    intro other scope lookup
    rw [find?_setLocals] at lookup
    split at lookup
    next =>
      obtain ⟨before, found, rfl⟩ := Option.map_eq_some_iff.1 lookup
      exact ⟨before, found, rfl, rfl, .inl rfl⟩
    next => exact ⟨scope, lookup, rfl, rfl, .inr rfl⟩
  constructor
  · intro other parent scope lookup isParent
    obtain ⟨before, found, sameParent, -, -⟩ := old lookup
    exact wf.parent_lt found (sameParent.trans isParent)
  · intro other parent scope lookup isParent
    obtain ⟨before, found, sameParent, sameFunc, -⟩ := old lookup
    obtain ⟨outer, isOuter, func⟩ := wf.func_parent found (sameParent.trans isParent)
    rw [find?_setLocals, isOuter]
    split <;> exact ⟨_, rfl, func.trans sameFunc⟩
  · intro other scope lookup isRoot
    obtain ⟨before, found, sameParent, sameFunc, -⟩ := old lookup
    exact sameFunc.symm.trans (wf.func_root found (sameParent.trans isRoot))
  · intro other scope lookup
    rcases old lookup with ⟨before, found, -, -, same | same⟩
    · rw [same]
      exact nodup
    · rw [same]
      exact wf.names_nodup found

theorem locals?_eq_some {tree : ScopeTree} {id : ScopeId} {locals : List Variable} :
    tree.locals? id = some locals ↔
      ∃ scope, tree.find? id = some scope ∧ scope.locals = locals := by
  simp [locals?]

theorem Step.wellFormed {tree later : ScopeTree} (step : Step tree later) (wf : tree.WellFormed) :
    later.WellFormed := by
  cases step with
  | function =>
    apply wf.push rfl
    · intro parent isParent
      cases isParent
    · intro _
      rfl
  | child made =>
    obtain ⟨scope, found, rfl, rfl⟩ := newChild?_eq_some.1 made
    apply wf.push rfl
    · intro parent isParent
      cases isParent
      exact ⟨scope, found, rfl⟩
    · intro isRoot
      cases isRoot
  | add added =>
    obtain ⟨locals, hasLocals, _, rfl⟩ := add?_eq_some.1 added
    obtain ⟨scope, found, rfl⟩ := locals?_eq_some.1 hasLocals
    exact wf.setLocals (nodup_declare _ (wf.names_nodup found))
  | drain drained =>
    obtain ⟨_, rfl⟩ := drain?_eq_some.1 drained
    exact wf.setLocals List.nodup_nil

theorem Evolves.wellFormed {tree later : ScopeTree} (evolves : Evolves tree later)
    (wf : tree.WellFormed) : later.WellFormed := by
  induction evolves with
  | refl => exact wf
  | tail _ step ih => exact step.wellFormed ih

/-! ## Enclosing scopes -/

/-- `tree.Encloses outer inner`: `outer` is the scope `inner` or a scope around it. -/
inductive Encloses (tree : ScopeTree) : ScopeId → ScopeId → Prop
  | self {id : ScopeId} : id < tree.size → Encloses tree id id
  | parent {outer inner parent : ScopeId} : tree.parent? inner = some (some parent) →
      Encloses tree outer parent → Encloses tree outer inner

theorem parent?_eq_some {tree : ScopeTree} {id : ScopeId} {parent : Option ScopeId} :
    tree.parent? id = some parent ↔
      ∃ scope, tree.find? id = some scope ∧ scope.parent = parent := by
  simp [parent?]

theorem encloses_iff_of_root {tree : ScopeTree} {id outer : ScopeId} {scope : Scope}
    (found : tree.find? id = some scope) (isRoot : scope.parent = none) :
    tree.Encloses outer id ↔ outer = id := by
  constructor
  · intro encloses
    cases encloses with
    | self => rfl
    | parent isParent =>
      obtain ⟨_, found', isParent⟩ := parent?_eq_some.1 isParent
      rw [found] at found'
      cases found'
      rw [isRoot] at isParent
      cases isParent
  · rintro rfl
    exact .self (lt_size_of_find? found)

theorem encloses_iff_of_parent {tree : ScopeTree} {id outer parent : ScopeId} {scope : Scope}
    (found : tree.find? id = some scope) (isParent : scope.parent = some parent) :
    tree.Encloses outer id ↔ outer = id ∨ tree.Encloses outer parent := by
  constructor
  · intro encloses
    cases encloses with
    | self => exact .inl rfl
    | parent isParent' around =>
      obtain ⟨_, found', isParent'⟩ := parent?_eq_some.1 isParent'
      rw [found] at found'
      cases found'
      rw [isParent] at isParent'
      cases isParent'
      exact .inr around
  · rintro (rfl | around)
    · exact .self (lt_size_of_find? found)
    · exact .parent (parent?_eq_some.2 ⟨scope, found, isParent⟩) around

/-! ## The way out of a scope -/

/-- A row of scopes leads from a scope to its function scope: it goes along the parents, meets no
scope twice and none of another function. -/
structure LeadsOut (tree : ScopeTree) (id func : ScopeId) (chain : List ScopeId) : Prop where
  starts : chain.head? = some id
  follows : chain.IsChain fun inner outer => tree.parent? inner = some (some outer)
  ends : chain.getLast? = some func
  nodup : chain.Nodup
  inside : ∀ other ∈ chain, tree.func? other = some func

theorem func?_eq_some {tree : ScopeTree} {id func : ScopeId} :
    tree.func? id = some func ↔ ∃ scope, tree.find? id = some scope ∧ scope.func = func := by
  simp [func?]

namespace WellFormed

variable {tree : ScopeTree} (wf : tree.WellFormed)
include wf

/-- The function scope of a scope does not come after it. -/
theorem func_le {id : ScopeId} {scope : Scope} (found : tree.find? id = some scope) :
    scope.func ≤ id := by
  induction id using Nat.strongRecOn generalizing scope with
  | ind id ih =>
    cases isParent : scope.parent with
    | none => exact Nat.le_of_eq (wf.func_root found isParent)
    | some parent =>
      obtain ⟨outer, isOuter, func⟩ := wf.func_parent found isParent
      have lt := wf.parent_lt found isParent
      rw [← func]
      exact Nat.le_trans (ih parent lt isOuter) (Nat.le_of_lt lt)

theorem func_lt_of_parent {id parent : ScopeId} {scope : Scope} (found : tree.find? id = some scope)
    (isParent : scope.parent = some parent) : scope.func < id := by
  obtain ⟨outer, isOuter, func⟩ := wf.func_parent found isParent
  rw [← func]
  exact Nat.lt_of_le_of_lt (wf.func_le isOuter) (wf.parent_lt found isParent)

theorem le_of_encloses {outer inner : ScopeId} (encloses : tree.Encloses outer inner) :
    outer ≤ inner := by
  induction encloses with
  | self => exact Nat.le_refl _
  | parent isParent _ ih =>
    obtain ⟨_, found, isParent⟩ := parent?_eq_some.1 isParent
    have lt := wf.parent_lt found isParent
    exact Nat.le_trans ih (Nat.le_of_lt lt)

/-- A row along the parents goes down in number, so it meets no scope twice. -/
theorem nodup_of_follows {chain : List ScopeId}
    (follows : chain.IsChain fun inner outer => tree.parent? inner = some (some outer)) :
    chain.Nodup := by
  have down : chain.IsChain (· > ·) := by
    refine follows.imp ?_
    intro inner outer link
    obtain ⟨_, found, isParent⟩ := parent?_eq_some.1 link
    exact wf.parent_lt found isParent
  exact down.pairwise.imp fun gt => Nat.ne_of_gt gt

/-- The way out of a scope ends at its function scope after at most as many steps as its number
says, and a larger bound on the steps changes nothing. -/
theorem chainFrom_leadsOut {id : ScopeId} {scope : Scope} (found : tree.find? id = some scope) :
    ∃ chain, tree.LeadsOut id scope.func chain ∧
      ∀ fuel, id ≤ fuel → tree.chainFrom scope.func fuel id = some chain := by
  induction id using Nat.strongRecOn generalizing scope with
  | ind id ih =>
    have own : tree.func? id = some scope.func := func?_eq_some.2 ⟨scope, found, rfl⟩
    cases isParent : scope.parent with
    | none =>
      have self := wf.func_root found isParent
      refine ⟨[id], ⟨rfl, .singleton id, ?_, List.nodup_singleton id, ?_⟩, ?_⟩
      · rw [self, List.getLast?_singleton]
      · intro other member
        rwa [List.mem_singleton.1 member]
      · intro fuel _
        cases fuel with
        | zero => rfl
        | succ fuel => rw [chainFrom, if_pos self.symm]
    | some parent =>
      have link : tree.parent? id = some (some parent) :=
        parent?_eq_some.2 ⟨scope, found, isParent⟩
      have lt := wf.parent_lt found isParent
      obtain ⟨outer, isOuter, func⟩ := wf.func_parent found isParent
      obtain ⟨chain, out, climbs⟩ := ih parent lt isOuter
      rw [func] at out climbs
      obtain ⟨rest, rfl⟩ := List.head?_eq_some_iff.1 out.starts
      have follows : (id :: parent :: rest).IsChain fun inner outer =>
          tree.parent? inner = some (some outer) := .cons_cons link out.follows
      refine ⟨id :: parent :: rest, ⟨rfl, follows, ?_, wf.nodup_of_follows follows, ?_⟩, ?_⟩
      · rw [List.getLast?_cons_cons, out.ends]
      · intro other member
        rcases List.mem_cons.1 member with rfl | member
        · exact own
        · exact out.inside other member
      · intro fuel enough
        cases fuel with
        | zero => exact absurd (Nat.lt_of_lt_of_le lt enough) (Nat.not_lt_zero parent)
        | succ fuel =>
          have enough' : parent ≤ fuel := Nat.le_of_lt_succ (Nat.lt_of_lt_of_le lt enough)
          rw [chainFrom, if_neg (Nat.ne_of_gt (wf.func_lt_of_parent found isParent)), link]
          simp only [climbs fuel enough', Option.map_some]

/-- On the way out of a scope are the scopes that enclose it. -/
theorem mem_iff_encloses {id func outer : ScopeId} {chain : List ScopeId}
    (out : tree.LeadsOut id func chain) : outer ∈ chain ↔ tree.Encloses outer id := by
  induction chain generalizing id with
  | nil => cases out.starts
  | cons first rest ih =>
    cases out.starts
    cases rest with
    | nil =>
      obtain ⟨scope, found, isFunc⟩ := func?_eq_some.1 (out.inside first List.mem_cons_self)
      cases out.ends
      cases isParent : scope.parent with
      | none => rw [encloses_iff_of_root found isParent, List.mem_singleton]
      | some parent =>
        have lt := wf.func_lt_of_parent found isParent
        exact absurd isFunc (Nat.ne_of_lt lt)
    | cons parent others =>
      obtain ⟨link, follows⟩ := List.isChain_cons_cons.1 out.follows
      obtain ⟨_, found', isParent⟩ := parent?_eq_some.1 link
      have outward : tree.LeadsOut parent func (parent :: others) :=
        ⟨rfl, follows, (List.getLast?_cons_cons).symm.trans out.ends, out.nodup.tail,
          fun other member => out.inside other (List.mem_cons_of_mem _ member)⟩
      rw [List.mem_cons, ih outward, encloses_iff_of_parent found' isParent]

/-- The chain of a scope exists and consists of the scopes that enclose it, each once. -/
theorem chain?_eq_some {id : ScopeId} (isScope : id < tree.size) :
    ∃ chain, tree.chain? id = some chain ∧ (∀ outer, outer ∈ chain ↔ tree.Encloses outer id) ∧
      chain.Nodup := by
  obtain ⟨scope, found⟩ := Option.isSome_iff_exists.1 ((find?_isSome_iff tree id).2 isScope)
  obtain ⟨chain, out, climbs⟩ := wf.chainFrom_leadsOut found
  refine ⟨chain, ?_, fun outer => wf.mem_iff_encloses out, out.nodup⟩
  rw [chain?, func?_eq_some.2 ⟨scope, found, rfl⟩, Option.bind_some]
  exact climbs tree.size (Nat.le_of_lt isScope)

end WellFormed

end ScriptToC.ScopeTree
