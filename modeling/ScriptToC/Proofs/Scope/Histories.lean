import ScriptToC.Proofs.Scope.Chain

/-!
# What every history of the scopes keeps

A history is a row of operations on the scopes, each with the scopes and the locals it names. An
operation fails if it names a scope that does not exist, and the history goes on from what the
failure leaves. Nothing is left of it: the tree is the one from before (`perform_failed`). For
declaring several locals this has to be shown, since they are declared one after the other.

So every tree that a history leads to is well formed, and in a well-formed tree the loop that climbs
from a scope to its function scope ends there. It goes along the parents, meets no scope twice and
no scope of another function (`LeadsOut`), and a scope without a parent stops it only if it is the
function scope itself (`histories_sound`).
-/

set_option autoImplicit false

namespace ScriptToC.ScopeTree

/-! ## Operations and histories -/

/-- An operation on the scopes, with what it is applied to. -/
inductive Operation
  | function
  | child (parent : ScopeId)
  | add (id : ScopeId) (x : Variable)
  | drain (id : ScopeId)
  | extend (id : ScopeId) (xs : List Variable)
  deriving DecidableEq, Repr

/-- Whether an operation succeeds, and the tree it leaves, which of a failure is the one it started
with. -/
def outcome {α : Type} (tree : ScopeTree) : Option (α × ScopeTree) → Bool × ScopeTree
  | none => (false, tree)
  | some (_, later) => (true, later)

/-- Declares several locals one after the other. The first that fails ends the row, and what was
declared before it stays. -/
def declareEach (tree : ScopeTree) (id : ScopeId) : List Variable → Bool × ScopeTree
  | [] => (true, tree)
  | x :: rest =>
    match tree.add? id x with
    | none => (false, tree)
    | some (_, later) => later.declareEach id rest

/-- Whether an operation succeeds, and the tree it leaves in either case. -/
def perform (tree : ScopeTree) : Operation → Bool × ScopeTree
  | .function => (true, tree.newFunction.2)
  | .child parent => tree.outcome (tree.newChild? parent)
  | .add id x => tree.outcome (tree.add? id x)
  | .drain id => tree.outcome (tree.drain? id)
  | .extend id xs => tree.declareEach id xs

/-- The tree that a history leads to, from a tree without scopes. -/
def ofHistory (history : List Operation) : ScopeTree :=
  history.foldl (fun tree operation => (tree.perform operation).2) {}

/-! ## Failures -/

theorem outcome_failed {α : Type} {tree : ScopeTree} {result : Option (α × ScopeTree)}
    (failed : (tree.outcome result).1 = false) : (tree.outcome result).2 = tree := by
  cases result with
  | none => rfl
  | some => cases failed

theorem add?_isSome_iff (tree : ScopeTree) (id : ScopeId) (x : Variable) :
    (tree.add? id x).isSome ↔ id < tree.size := by
  rw [← find?_isSome_iff]
  simp [add?, locals?]

theorem size_of_add? {tree later : ScopeTree} {id : ScopeId} {x : Variable} {new : Bool}
    (added : tree.add? id x = some (new, later)) : later.size = tree.size := by
  obtain ⟨_, _, _, rfl⟩ := add?_eq_some.1 added
  exact size_setLocals tree id _

/-- In a scope that exists, several locals are declared without a failure. -/
theorem declareEach_succeeds {tree : ScopeTree} {id : ScopeId} (xs : List Variable)
    (isScope : id < tree.size) : (tree.declareEach id xs).1 = true := by
  induction xs generalizing tree with
  | nil => rfl
  | cons x rest ih =>
    obtain ⟨⟨new, later⟩, added⟩ :=
      Option.isSome_iff_exists.1 ((add?_isSome_iff tree id x).2 isScope)
    rw [declareEach, added]
    exact ih ((size_of_add? added).symm ▸ isScope)

/-- The row of declarations as one operation: it gives a tree exactly if no declaration fails. -/
theorem extend?_eq_some_iff {tree later : ScopeTree} {id : ScopeId} {xs : List Variable} :
    tree.extend? id xs = some later ↔ tree.declareEach id xs = (true, later) := by
  induction xs generalizing tree with
  | nil => simp [extend?, declareEach]
  | cons x rest ih =>
    rw [extend?, declareEach]
    cases tree.add? id x with
    | none => simp
    | some answer => exact ih

/-- A failed operation leaves the tree as it was. -/
theorem perform_failed {tree : ScopeTree} {operation : Operation}
    (failed : (tree.perform operation).1 = false) : (tree.perform operation).2 = tree := by
  cases operation with
  | function => cases failed
  | child parent => exact outcome_failed failed
  | add id x => exact outcome_failed failed
  | drain id => exact outcome_failed failed
  | extend id xs =>
    cases xs with
    | nil => rfl
    | cons x rest =>
      rw [perform, declareEach] at failed ⊢
      cases added : tree.add? id x with
      | none => rfl
      | some answer =>
        -- The scope exists after the first declaration, so no later one can have failed.
        obtain ⟨new, later⟩ := answer
        have isScope := (add?_isSome_iff tree id x).1 (Option.isSome_of_eq_some added)
        rw [added] at failed
        have succeeds := declareEach_succeeds rest ((size_of_add? added).symm ▸ isScope)
        exact absurd (failed.symm.trans succeeds) Bool.false_ne_true

/-! ## The trees that histories lead to -/

theorem evolves_outcome {α : Type} {tree : ScopeTree} {result : Option (α × ScopeTree)}
    (step : ∀ a later, result = some (a, later) → Step tree later) :
    Evolves tree (tree.outcome result).2 := by
  cases result with
  | none => exact .refl
  | some answer => exact .single (step answer.1 answer.2 rfl)

theorem evolves_perform (tree : ScopeTree) (operation : Operation) :
    Evolves tree (tree.perform operation).2 := by
  cases operation with
  | function => exact .single (.function tree)
  | child parent => exact evolves_outcome fun _ _ made => .child made
  | add id x => exact evolves_outcome fun _ _ added => .add added
  | drain id => exact evolves_outcome fun _ _ drained => .drain drained
  | extend id xs =>
    cases succeeded : (tree.perform (.extend id xs)).1 with
    | false =>
      rw [perform_failed succeeded]
    | true =>
      have row : tree.declareEach id xs = (true, (tree.declareEach id xs).2) :=
        Prod.ext succeeded rfl
      exact evolves_of_extend? (extend?_eq_some_iff.2 row)

/-- Every history leads to a well-formed tree. -/
theorem wellFormed_ofHistory (history : List Operation) : (ofHistory history).WellFormed := by
  have kept : ∀ tree : ScopeTree, tree.WellFormed →
      (history.foldl (fun tree operation => (tree.perform operation).2) tree).WellFormed := by
    induction history with
    | nil => exact fun tree wf => wf
    | cons operation rest ih =>
      exact fun tree wf => ih _ ((evolves_perform tree operation).wellFormed wf)
  exact kept {} wellFormed_empty

/-- **What histories keep.** In the tree that a history leads to, the parent of a scope has a
smaller number and the same function, a scope without a parent is its own function, the function
scope of a scope is its own function scope, and no scope declares a name twice. The way out of every
scope exists, whatever larger bound it is given, and leads to the function scope. Any further
operation that fails leaves the tree as it is. -/
theorem histories_sound (history : List Operation) :
    let tree := ofHistory history
    (∀ (id parent : ScopeId), tree.parent? id = some (some parent) →
      parent < id ∧ (tree.func? parent).isSome ∧ tree.func? id = tree.func? parent) ∧
    (∀ id : ScopeId, tree.parent? id = some none → tree.func? id = some id) ∧
    (∀ (id : ScopeId) (locals : List Variable), tree.locals? id = some locals →
      (locals.map (·.name)).Nodup) ∧
    (∀ id : ScopeId, id < tree.size → ∃ func chain, tree.func? id = some func ∧
      tree.func? func = some func ∧ tree.chain? id = some chain ∧ tree.LeadsOut id func chain ∧
      ∀ fuel, tree.size ≤ fuel → tree.chainFrom func fuel id = some chain) ∧
    (∀ operation : Operation, (tree.perform operation).1 = false →
      (tree.perform operation).2 = tree) := by
  intro tree
  have wf : tree.WellFormed := wellFormed_ofHistory history
  refine ⟨?_, ?_, ?_, ?_, ?_⟩
  · intro id parent link
    obtain ⟨scope, found, isParent⟩ := parent?_eq_some.1 link
    obtain ⟨outer, isOuter, func⟩ := wf.func_parent found isParent
    have own : tree.func? id = some scope.func := func?_eq_some.2 ⟨scope, found, rfl⟩
    have others : tree.func? parent = some scope.func := func?_eq_some.2 ⟨outer, isOuter, func⟩
    exact ⟨wf.parent_lt found isParent, Option.isSome_of_eq_some others, own.trans others.symm⟩
  · intro id link
    obtain ⟨scope, found, isRoot⟩ := parent?_eq_some.1 link
    exact func?_eq_some.2 ⟨scope, found, wf.func_root found isRoot⟩
  · intro id locals found
    obtain ⟨scope, isScope, rfl⟩ := locals?_eq_some.1 found
    exact wf.names_nodup isScope
  · intro id isScope
    obtain ⟨scope, found⟩ := Option.isSome_iff_exists.1 ((find?_isSome_iff tree id).2 isScope)
    have own : tree.func? id = some scope.func := func?_eq_some.2 ⟨scope, found, rfl⟩
    obtain ⟨chain, out, climbs⟩ := wf.chainFrom_leadsOut found
    have small := Nat.le_of_lt isScope
    have self := out.inside scope.func (List.mem_of_getLast? out.ends)
    refine ⟨scope.func, chain, own, self, ?_, out, ?_⟩
    · rw [chain?, own, Option.bind_some, climbs tree.size small]
    · exact fun fuel enough => climbs fuel (Nat.le_trans small enough)
  · exact fun operation failed => perform_failed failed

/-- A history with failures in it: the children of scopes that do not exist, a name declared twice
and locals that are moved outward. The innermost scope leads out through both scopes around it. -/
theorem histories_sound_nested :
    let history : List Operation :=
      [.child 4, .function, .child 0, .function, .child 1, .add 3 ⟨"i", .number⟩,
        .add 3 ⟨"i", .string⟩, .extend 9 [⟨"k", .number⟩], .drain 7,
        .extend 1 [⟨"i", .number⟩, ⟨"k", .number⟩, ⟨"i", .string⟩]]
    let tree := ofHistory history
    tree.parent? 3 = some (some 1) ∧ tree.parent? 2 = some none ∧
      tree.locals? 1 = some [⟨"i", .number⟩, ⟨"k", .number⟩] ∧ 3 < tree.size ∧
      (tree.perform (.child 4)).1 = false ∧
      1 < 3 ∧ tree.func? 2 = some 2 ∧ ["i", "k"].Nodup ∧
      (∃ func chain, tree.func? 3 = some func ∧ tree.chain? 3 = some chain ∧
        tree.LeadsOut 3 func chain ∧ chain = [3, 1, 0]) ∧
      (tree.perform (.child 4)).2 = tree := by
  intro history tree
  obtain ⟨links, roots, names, ways, failures⟩ := histories_sound history
  have link : tree.parent? 3 = some (some 1) := by decide
  have noLink : tree.parent? 2 = some none := by decide
  have locals : tree.locals? 1 = some [⟨"i", .number⟩, ⟨"k", .number⟩] := by decide
  have isScope : 3 < tree.size := by decide
  have failed : (tree.perform (.child 4)).1 = false := by decide
  obtain ⟨func, chain, own, -, way, out, -⟩ := ways 3 isScope
  have same : chain = [3, 1, 0] := by
    have computed : tree.chain? 3 = some [3, 1, 0] := by decide
    exact Option.some.inj (way.symm.trans computed)
  exact ⟨link, noLink, locals, isScope, failed, (links 3 1 link).1, roots 2 noLink,
    names 1 _ locals, ⟨func, chain, own, way, out, same⟩, failures _ failed⟩

end ScriptToC.ScopeTree
