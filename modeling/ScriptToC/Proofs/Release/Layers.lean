import ScriptToC.Proofs.Emission.Frame
import ScriptToC.Proofs.Hoisting.Extension

/-!
# The locals around a place

While statements are emitted, the scopes from the current one outward to that of the function hold
layers of locals. A plan releases what the layers own (`Layered.releases?_eq`). Emitting something
in the current scope adds to the first layer what is introduced there and leaves the others alone
(`Layered.next`); a new scope adds an empty layer (`layered_newChild`).
-/

set_option autoImplicit false

namespace ScriptToC

open Ir ScopeTree

/-- The releases of the owned locals in some layers, except the one whose value is returned. -/
def planned (layers : List (List Variable)) (returned : Option String) : List Release :=
  (layers.flatten.filter fun x => returned ≠ some x.name).filterMap Variable.release?

namespace ScopeTree

/-- The locals of a scope and of those around it, from the inside out. -/
inductive Layers (tree : ScopeTree) : ScopeId → List (List Variable) → Prop
  | root {id : ScopeId} {scope : Scope} (found : tree.find? id = some scope)
      (isRoot : scope.parent = none) : Layers tree id [scope.locals]
  | child {id parent : ScopeId} {scope : Scope} {layers : List (List Variable)}
      (found : tree.find? id = some scope) (isParent : scope.parent = some parent)
      (outer : Layers tree parent layers) : Layers tree id (scope.locals :: layers)

/-- A well-formed tree with these layers at a scope. -/
structure Layered (tree : ScopeTree) (id : ScopeId) (layers : List (List Variable)) : Prop where
  wellFormed : tree.WellFormed
  layers : tree.Layers id layers

variable {tree before after : ScopeTree} {id : ScopeId} {own : List Variable}
  {layers around : List (List Variable)}

/-- The chain of a scope goes through its layers. -/
theorem Layers.chainFrom_eq (stands : tree.Layers id layers) (wf : tree.WellFormed) {scope : Scope}
    {fuel : Nat} (found : tree.find? id = some scope) (enough : id ≤ fuel) :
    ∃ chain, tree.chainFrom scope.func fuel id = some chain ∧
      chain.mapM tree.locals? = some layers := by
  induction stands generalizing scope fuel with
  | @root id first isFirst isRoot =>
    rw [isFirst] at found
    cases found
    refine ⟨[id], ?_, ?_⟩
    · cases fuel with
      | zero => rfl
      | succ fuel => rw [chainFrom, if_pos (wf.func_root isFirst isRoot).symm]
    · rw [List.mapM_cons, locals?, isFirst]
      rfl
  | @child id parent first layers isFirst isParent outer ih =>
    rw [isFirst] at found
    cases found
    have lt := wf.parent_lt isFirst isParent
    obtain ⟨next, isNext, func⟩ := wf.func_parent isFirst isParent
    cases fuel with
    | zero => exact absurd (Nat.lt_of_lt_of_le lt enough) (Nat.not_lt_zero parent)
    | succ fuel =>
      obtain ⟨chain, run, locals⟩ := ih isNext (Nat.le_of_lt_succ (Nat.lt_of_lt_of_le lt enough))
      refine ⟨id :: chain, ?_, ?_⟩
      · rw [chainFrom, if_neg (Nat.ne_of_gt (wf.func_lt_of_parent isFirst isParent)),
          parent?_eq_some.2 ⟨_, isFirst, isParent⟩]
        simp only [← func, run, Option.map_some]
      · rw [List.mapM_cons, locals, locals?, isFirst]
        rfl

theorem Layers.exists_find? (stands : tree.Layers id layers) :
    ∃ scope, tree.find? id = some scope := by
  cases stands with
  | root found | child found => exact ⟨_, found⟩

theorem Layered.isScope (shown : tree.Layered id layers) : id < tree.size := by
  obtain ⟨_, found⟩ := shown.layers.exists_find?
  exact lt_size_of_find? found

/-- What a plan releases lies in the layers. -/
theorem Layered.releases?_eq (shown : tree.Layered id layers) (returned : Option String) :
    tree.releases? id returned = some (planned layers returned) := by
  obtain ⟨scope, found⟩ := shown.layers.exists_find?
  obtain ⟨chain, run, locals⟩ := shown.layers.chainFrom_eq shown.wellFormed found
    (Nat.le_of_lt (lt_size_of_find? found))
  simp only [releases?, chain?, func?, found, Option.map_some, Option.bind_some, run, locals,
    Option.bind_eq_bind, Option.pure_def]
  rfl

/-- Layers stay while the scopes around a place keep their locals. -/
theorem Layers.kept_of_encloses (stands : before.Layers id layers) (evolves : before.Evolves after)
    (same : ∀ outer, before.Encloses outer id → after.locals? outer = before.locals? outer) :
    after.Layers id layers := by
  induction stands with
  | @root id scope found isRoot =>
    obtain ⟨scope', found', parent, -⟩ := evolves.keeps found
    have locals := same id (.self (lt_size_of_find? found))
    rw [locals?, locals?, found, found', Option.map_some, Option.map_some] at locals
    rw [← Option.some.inj locals]
    exact .root found' (parent.trans isRoot)
  | @child id parent scope layers found isParent outer ih =>
    obtain ⟨scope', found', parent', -⟩ := evolves.keeps found
    have locals := same id (.self (lt_size_of_find? found))
    rw [locals?, locals?, found, found', Option.map_some, Option.map_some] at locals
    rw [← Option.some.inj locals]
    refine .child found' (parent'.trans isParent) (ih fun other encloses => ?_)
    exact same other (.parent (parent?_eq_some.2 ⟨scope, found, isParent⟩) encloses)

/-- Layers stay while the scopes up to a place keep their locals. -/
theorem Layers.kept (stands : before.Layers id layers) (wf : before.WellFormed)
    (evolves : before.Evolves after)
    (same : ∀ outer, outer ≤ id → after.locals? outer = before.locals? outer) :
    after.Layers id layers :=
  stands.kept_of_encloses evolves fun outer encloses => same outer (wf.le_of_encloses encloses)

/-- What is introduced in a scope joins its layer. -/
theorem Layered.next {xs : List Variable} (shown : before.Layered id (own :: around))
    (evolves : before.Evolves after) (frame : Frame id xs before after) :
    after.Layered id (introduce own xs :: around) := by
  obtain ⟨wf, stands⟩ := shown
  refine ⟨evolves.wellFormed wf, ?_⟩
  cases stands with
  | @root _ scope found isRoot =>
    obtain ⟨scope', found', parent, -⟩ := evolves.keeps found
    have locals := frame.own (locals?_eq_some.2 ⟨scope, found, rfl⟩)
    rw [locals?, found', Option.map_some] at locals
    rw [← Option.some.inj locals]
    exact .root found' (parent.trans isRoot)
  | @child _ parent scope layers found isParent outer =>
    obtain ⟨scope', found', parent', -⟩ := evolves.keeps found
    have locals := frame.own (locals?_eq_some.2 ⟨scope, found, rfl⟩)
    rw [locals?, found', Option.map_some] at locals
    rw [← Option.some.inj locals]
    refine .child found' (parent'.trans isParent) (outer.kept wf evolves ?_)
    intro other le
    have lt := Nat.lt_of_le_of_lt le (wf.parent_lt found isParent)
    exact frame.others (Nat.lt_trans lt (lt_size_of_find? found)) (Nat.ne_of_lt lt)

/-- What introduces nothing keeps the layers. -/
theorem Layered.same (shown : before.Layered id (own :: around)) (evolves : before.Evolves after)
    (frame : Frame id [] before after) : after.Layered id (own :: around) :=
  shown.next evolves frame

/-- Every scope has layers. -/
theorem exists_layered (wf : tree.WellFormed) (isScope : id < tree.size) :
    ∃ layers, tree.Layered id layers := by
  induction id using Nat.strongRecOn with
  | ind id ih =>
    obtain ⟨scope, found⟩ := Option.isSome_iff_exists.1 ((find?_isSome_iff tree id).2 isScope)
    cases isParent : scope.parent with
    | none => exact ⟨_, wf, .root found isParent⟩
    | some parent =>
      have lt := wf.parent_lt found isParent
      obtain ⟨layers, -, outer⟩ := ih parent lt (Nat.lt_trans lt isScope)
      exact ⟨_, wf, .child found isParent outer⟩

/-- There is a layer for the scope itself. -/
theorem Layers.exists_cons (stands : tree.Layers id layers) :
    ∃ own around, layers = own :: around := by
  cases stands with
  | root | child => exact ⟨_, _, rfl⟩

/-- The first layer is that of the scope itself. -/
theorem Layers.locals?_eq (stands : tree.Layers id (own :: around)) :
    tree.locals? id = some own := by
  cases stands with
  | root found | child found => exact locals?_eq_some.2 ⟨_, found, rfl⟩

/-- The other layers are those of the scope around it. -/
theorem Layers.outer {parent : ScopeId} (stands : tree.Layers id layers)
    (isParent : tree.parent? id = some (some parent)) :
    ∃ own around, layers = own :: around ∧ tree.Layers parent around := by
  obtain ⟨scope, found, isParent⟩ := parent?_eq_some.1 isParent
  cases stands with
  | root found' isRoot =>
    cases found.symm.trans found'
    rw [isParent] at isRoot
    cases isRoot
  | child found' isParent' outer =>
    cases found.symm.trans found'
    cases isParent.symm.trans isParent'
    exact ⟨_, _, rfl, outer⟩

end ScopeTree

namespace Emit

variable {σ : Setting} {scope : ScopeId} {w w' : Workspace} {layers : List (List Variable)}

/-- A new scope adds an empty layer. -/
theorem layered_newChild {inner : ScopeId} (shown : w.scopes.Layered scope layers)
    (opened : newChild scope σ w = (.ok inner, w')) : w'.scopes.Layered inner ([] :: layers) := by
  have isScope := shown.isScope
  obtain ⟨wf, stands⟩ := shown
  obtain ⟨rfl, opens, func, later⟩ := newChild_shape opened
  refine ⟨opens.wellFormed wf, ?_⟩
  have found : w'.scopes.find? w.scopes.size = some ⟨some scope, func, []⟩ := by
    rw [later, find?_push, if_pos rfl]
  refine .child found rfl (stands.kept wf opens ?_)
  intro other le
  have lt := Nat.lt_of_le_of_lt le isScope
  rw [locals?, later, find?_push, if_neg (Nat.ne_of_lt lt), ← locals?]

/-- A function starts with one empty layer. -/
theorem layered_newFunction (wf : w.scopes.WellFormed)
    (made : newFunction σ w = (.ok scope, w')) : w'.scopes.Layered scope [[]] := by
  obtain ⟨tree, -, -⟩ := newFunction_ok.1 made
  have number : w.scopes.size = scope := congrArg Prod.fst tree
  have later : w.scopes.newFunction.2 = w'.scopes := congrArg Prod.snd tree
  have opens : w.scopes.Evolves w'.scopes := later ▸ .single (.function w.scopes)
  refine ⟨opens.wellFormed wf, ?_⟩
  have found : w'.scopes.find? scope = some ⟨none, w.scopes.size, []⟩ := by
    rw [← later, find?_newFunction, if_pos number.symm]
  exact .root found rfl

end Emit

end ScriptToC
