import ScriptToC.Emit.Program

/-!
# Runs of emitting steps

A step runs in a setting from a workspace, and ends with a result or an error and with the workspace
as it is then. A row of steps succeeds exactly if each of them does, one after the other
(`bind_ok`); the laws of the basic steps say what they need and what they change. With them a run of
the emitter is taken apart without a look at how steps are put together.
-/

set_option autoImplicit false

namespace ScriptToC.Emit

variable {α β : Type} {σ : Setting} {before after : Workspace}

/-! ## Rows of steps -/

/-- A row of steps goes on with what the first one left, unless that one fails. -/
theorem run_bind (m : EmitM α) (next : α → EmitM β) (σ : Setting) (before : Workspace) :
    (m >>= next) σ before =
      match m σ before with
      | (.ok a, middle) => next a σ middle
      | (.error cause, middle) => (.error cause, middle) := by
  change (ExceptT.bind (m σ) fun a => next a σ) before = _
  simp only [ExceptT.bind, ExceptT.mk, bind, StateT.bind]
  rcases m σ before with ⟨_ | _, _⟩ <;> rfl

theorem bind_ok {m : EmitM α} {next : α → EmitM β} {b : β} :
    (m >>= next) σ before = (.ok b, after) ↔
      ∃ a middle, m σ before = (.ok a, middle) ∧ next a σ middle = (.ok b, after) := by
  rw [run_bind]
  constructor
  · intro run
    split at run
    next a middle eq => exact ⟨a, middle, eq, run⟩
    next => cases run
  · rintro ⟨a, middle, eq, run⟩
    rw [eq]
    exact run

theorem pure_ok {a b : α} :
    (pure a : EmitM α) σ before = (.ok b, after) ↔ a = b ∧ before = after := by
  change ((Except.ok a, before) : Except EmitError α × Workspace) = _ ↔ _
  simp

theorem map_ok {m : EmitM α} {f : α → β} {b : β} :
    (f <$> m) σ before = (.ok b, after) ↔ ∃ a, m σ before = (.ok a, after) ∧ f a = b := by
  rw [map_eq_pure_bind, bind_ok]
  simp only [pure_ok]
  constructor
  · rintro ⟨a, _, run, rfl, rfl⟩
    exact ⟨a, run, rfl⟩
  · rintro ⟨a, run, rfl⟩
    exact ⟨a, after, run, rfl, rfl⟩

theorem throw_ok {cause : EmitError} {a : α} :
    ¬ (throw cause : EmitM α) σ before = (.ok a, after) := by
  intro run
  cases run

/-- A step on an optional part runs exactly if the part is there. -/
theorem mapM_option_ok {part : Option α} {step : α → EmitM β} {result : Option β} :
    part.mapM step σ before = (.ok result, after) ↔
      (part = none ∧ result = none ∧ before = after) ∨
        ∃ a b, part = some a ∧ result = some b ∧ step a σ before = (.ok b, after) := by
  cases part with
  | none =>
    rw [Option.mapM_none, pure_ok]
    simp [eq_comm]
  | some a =>
    simp only [Option.mapM_some, map_ok]
    constructor
    · rintro ⟨b, run, rfl⟩
      exact .inr ⟨a, b, rfl, rfl, run⟩
    · rintro (⟨absurd, _⟩ | ⟨_, b, same, rfl, run⟩)
      · cases absurd
      · cases same
        exact ⟨b, run, rfl⟩

/-! ## Basic steps -/

/-- A question about the setting is answered by the setting. -/
theorem read_bind (next : Setting → EmitM α) : (read >>= next) σ before = next σ σ before :=
  rfl

theorem get_bind (next : Workspace → EmitM α) :
    (get >>= next) σ before = next before σ before :=
  rfl

/-- Emitting an expression leaves the scopes and the names alone. -/
theorem expr_ok {action : Types → ExprM α} {a : α}
    (run : expr action σ before = (.ok a, after)) :
    after.scopes = before.scopes ∧ after.names = before.names := by
  have eq : (expr action σ before).2 = after := congrArg Prod.snd run
  exact eq ▸ ⟨rfl, rfl⟩

theorem changeScopes_ok {scope : ScopeId} {change : ScopeTree → Option (α × ScopeTree)} {a : α} :
    changeScopes scope change σ before = (.ok a, after) ↔
      change before.scopes = some (a, after.scopes) ∧ after.names = before.names ∧
        after.headers = before.headers := by
  rw [changeScopes, get_bind]
  rcases change before.scopes with _ | ⟨result, changed⟩
  · simp only [reduceCtorEq, false_and, iff_false]
    exact throw_ok
  · change ((Except.ok result, { before with scopes := changed }) :
      Except EmitError α × Workspace) = _ ↔ _
    obtain ⟨scopes, names, headers⟩ := after
    simp only [Prod.mk.injEq, Except.ok.injEq, Workspace.mk.injEq, Option.some.injEq]
    grind

theorem askScopes_ok {scope : ScopeId} {ask : ScopeTree → Option α} {a : α} :
    askScopes scope ask σ before = (.ok a, after) ↔
      ask before.scopes = some a ∧ before = after := by
  rw [askScopes, get_bind]
  cases ask before.scopes with
  | none =>
    simp only [reduceCtorEq, false_and, iff_false]
    exact throw_ok
  | some result => simp [pure_ok]

theorem newChild_ok {scope inner : ScopeId} :
    newChild scope σ before = (.ok inner, after) ↔
      before.scopes.newChild? scope = some (inner, after.scopes) ∧ after.names = before.names ∧
        after.headers = before.headers :=
  changeScopes_ok

theorem declare_ok {scope : ScopeId} {x : Variable} :
    declare scope x σ before = (.ok (), after) ↔
      (∃ new, before.scopes.add? scope x = some (new, after.scopes)) ∧
        after.names = before.names ∧ after.headers = before.headers := by
  simp only [declare, bind_ok, changeScopes_ok, pure_ok]
  constructor
  · rintro ⟨new, _, ⟨added, names, headers⟩, -, rfl⟩
    exact ⟨⟨new, added⟩, names, headers⟩
  · rintro ⟨⟨new, added⟩, names, headers⟩
    exact ⟨new, after, ⟨added, names, headers⟩, trivial, rfl⟩

theorem localsOf_ok {scope : ScopeId} {locals : List Variable} :
    localsOf scope σ before = (.ok locals, after) ↔
      before.scopes.locals? scope = some locals ∧ before = after :=
  askScopes_ok

theorem releases_ok {scope : ScopeId} {returned : Option String} {list : List Release} :
    releases scope returned σ before = (.ok list, after) ↔
      before.scopes.releases? scope returned = some list ∧ before = after :=
  askScopes_ok

theorem hoist_ok {source target : ScopeId} :
    hoist source target σ before = (.ok (), after) ↔
      (∃ moved tree, before.scopes.drain? source = some (moved, tree) ∧
          tree.extend? target moved = some after.scopes) ∧
        after.names = before.names ∧ after.headers = before.headers := by
  simp only [hoist, bind_ok, changeScopes_ok, Option.map_eq_some_iff, Prod.mk.injEq]
  constructor
  · rintro ⟨moved, middle, ⟨drained, names, headers⟩, ⟨_, extended, -, rfl⟩, names', headers'⟩
    exact ⟨⟨moved, _, drained, extended⟩, names'.trans names, headers'.trans headers⟩
  · rintro ⟨⟨moved, tree, drained, extended⟩, names, headers⟩
    exact ⟨moved, { before with scopes := tree }, ⟨drained, rfl, rfl⟩,
      ⟨_, extended, trivial, rfl⟩, names, headers⟩

theorem counter_ok {id : NodeId} {name : String} :
    counter id σ before = (.ok name, after) ↔
      before.names.counter id = (name, after.names) ∧ after.scopes = before.scopes ∧
        after.headers = before.headers := by
  change ((Except.ok (before.names.counter id).1,
    { before with names := (before.names.counter id).2 }) : Except EmitError String × Workspace) = _
      ↔ _
  obtain ⟨scopes, names, headers⟩ := after
  simp only [Prod.mk.injEq, Except.ok.injEq, Workspace.mk.injEq]
  grind

theorem temporary_ok {id : NodeId} {hint name : String} :
    temporary id hint σ before = (.ok name, after) ↔
      before.names.temporary id hint = (name, after.names) ∧ after.scopes = before.scopes ∧
        after.headers = before.headers := by
  change ((Except.ok (before.names.temporary id hint).1,
    { before with names := (before.names.temporary id hint).2 }) :
      Except EmitError String × Workspace) = _ ↔ _
  obtain ⟨scopes, names, headers⟩ := after
  simp only [Prod.mk.injEq, Except.ok.injEq, Workspace.mk.injEq]
  grind

theorem typeOfNode_ok {node : Node} {what : Subject} {type : CType} :
    typeOfNode node what σ before = (.ok type, after) ↔
      σ.types node.id = some type ∧ before = after := by
  rw [typeOfNode, read_bind]
  cases σ.types node.id with
  | none =>
    simp only [reduceCtorEq, false_and, iff_false]
    exact throw_ok
  | some found => simp [pure_ok]

theorem newFunction_ok {scope : ScopeId} :
    newFunction σ before = (.ok scope, after) ↔
      before.scopes.newFunction = (scope, after.scopes) ∧ after.names = before.names ∧
        after.headers = before.headers := by
  change ((Except.ok before.scopes.newFunction.1,
    { before with scopes := before.scopes.newFunction.2 }) :
      Except EmitError ScopeId × Workspace) = _ ↔ _
  obtain ⟨scopes, names, headers⟩ := after
  simp only [Prod.mk.injEq, Except.ok.injEq, Workspace.mk.injEq]
  grind

/-- A `return` gets the text of its value and the plan of its scope; the scopes stay as they are. -/
theorem returned_ok {scope : ScopeId} {value : Option Ir.Expr} {c : CStmt}
    (run : returned scope value σ before = (.ok c, after)) :
    ∃ (text : Option String) (list : List Release), c = .returnStmt text list ∧
      text.isSome = value.isSome ∧
      before.scopes.releases? scope (value.bind Ir.Expr.ident?) = some list ∧
      after.scopes = before.scopes := by
  simp only [returned, bind_ok, pure_ok, releases_ok] at run
  obtain ⟨text, middle, translated, list, _, ⟨plan, rfl⟩, rfl, rfl⟩ := run
  rcases mapM_option_ok.1 translated with ⟨rfl, rfl, rfl⟩ | ⟨e, _, rfl, rfl, read⟩
  · exact ⟨none, list, rfl, rfl, plan, rfl⟩
  · have same := (expr_ok read).1
    rw [same] at plan
    exact ⟨_, list, rfl, rfl, plan, same⟩

/-! ## Steps of expressions -/

section Expressions

variable {first last : Headers}

/-- A row of steps goes on with what the first one left, unless that one fails. -/
theorem exprM_run_bind (m : ExprM α) (next : α → ExprM β) (first : Headers) :
    (m >>= next) first =
      match m first with
      | (.ok a, middle) => next a middle
      | (.error cause, middle) => (.error cause, middle) := by
  change (ExceptT.bind m next) first = _
  simp only [ExceptT.bind, ExceptT.mk, bind, StateT.bind]
  rcases m first with ⟨_ | _, _⟩ <;> rfl

theorem exprM_bind_ok {m : ExprM α} {next : α → ExprM β} {b : β} :
    (m >>= next) first = (.ok b, last) ↔
      ∃ a middle, m first = (.ok a, middle) ∧ next a middle = (.ok b, last) := by
  rw [exprM_run_bind]
  constructor
  · intro run
    split at run
    next a middle eq => exact ⟨a, middle, eq, run⟩
    next => cases run
  · rintro ⟨a, middle, eq, run⟩
    rw [eq]
    exact run

theorem exprM_pure_ok {a b : α} :
    (pure a : ExprM α) first = (.ok b, last) ↔ a = b ∧ first = last := by
  change ((Except.ok a, first) : Except EmitError α × Headers) = _ ↔ _
  simp

/-- A row of steps, one for each element, gives one result for each. -/
theorem length_of_mapM {step : α → ExprM β} {list : List α} {results : List β}
    (run : list.mapM step first = (.ok results, last)) : results.length = list.length := by
  induction list generalizing first results with
  | nil =>
    rw [List.mapM_nil, exprM_pure_ok] at run
    obtain ⟨rfl, -⟩ := run
    rfl
  | cons a rest ih =>
    simp only [List.mapM_cons, exprM_bind_ok, exprM_pure_ok] at run
    obtain ⟨_, _, -, others, _, run, rfl, rfl⟩ := run
    rw [List.length_cons, List.length_cons, ih run]

end Expressions

end ScriptToC.Emit
