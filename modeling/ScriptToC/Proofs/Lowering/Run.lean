import ScriptToC.Lowering.Program

/-!
# Runs of lowering

A step of lowering reads the declarations and turns a state into a result and another state, or it
rejects the script. For each kind of step, this is what it does if it succeeds.
-/

set_option autoImplicit false

namespace ScriptToC.Lowering

variable {α β : Type} {declared : Declared} {before after : State}

/-! ## Rows of steps -/

/-- A row of steps succeeds exactly if each of them does, one after the other. -/
theorem bind_ok {m : LowerM α} {next : α → LowerM β} {b : β} :
    (m >>= next) declared before = .ok (b, after) ↔
      ∃ a middle, m declared before = .ok (a, middle) ∧
        next a declared middle = .ok (b, after) := by
  change (m declared before).bind (fun result => next result.1 declared result.2) = _ ↔ _
  rcases m declared before with cause | ⟨a, middle⟩
  · constructor
    · intro run
      cases run
    · rintro ⟨_, _, absurd, -⟩
      cases absurd
  · constructor
    · exact fun run => ⟨a, middle, rfl, run⟩
    · rintro ⟨_, _, same, run⟩
      cases same
      exact run

theorem pure_ok {a b : α} :
    (pure a : LowerM α) declared before = .ok (b, after) ↔ a = b ∧ before = after := by
  change (Except.ok (a, before) : Except Rejection (α × State)) = _ ↔ _
  simp

theorem reject_ok {span : Span} {cause : Cause} {a : α} :
    ¬ (reject span cause : LowerM α) declared before = .ok (a, after) := by
  intro run
  cases run

theorem modify_ok {change : State → State} {u : Unit} :
    (modify change : LowerM Unit) declared before = .ok (u, after) ↔ change before = after := by
  change (Except.ok ((), change before) : Except Rejection (Unit × State)) = _ ↔ _
  simp

theorem get_ok {state : State} :
    (get : LowerM State) declared before = .ok (state, after) ↔
      before = state ∧ before = after := by
  change (Except.ok (before, before) : Except Rejection (State × State)) = _ ↔ _
  simp

theorem read_ok {found : Declared} :
    (read : LowerM Declared) declared before = .ok (found, after) ↔
      declared = found ∧ before = after := by
  change (Except.ok (declared, before) : Except Rejection (Declared × State)) = _ ↔ _
  simp

theorem freshNode_ok {span : Span} {node : Node} :
    freshNode span declared before = .ok (node, after) ↔
      ⟨before.next, span⟩ = node ∧ { before with next := before.next + 1 } = after := by
  change (Except.ok (⟨before.next, span⟩, _) : Except Rejection (Node × State)) = _ ↔ _
  simp

theorem freshId_ok {id : NodeId} :
    freshId declared before = .ok (id, after) ↔
      before.next = id ∧ { before with next := before.next + 1 } = after := by
  change (Except.ok (before.next, _) : Except Rejection (NodeId × State)) = _ ↔ _
  simp

/-- The state after a scope: what was visible before the scope is visible again. -/
def State.leave (inner before : State) : State :=
  { inner with visible := before.visible }

theorem inScope_ok {action : LowerM α} {a : α} :
    inScope action declared before = .ok (a, after) ↔
      ∃ inner, action declared before = .ok (a, inner) ∧ inner.leave before = after := by
  simp only [inScope, bind_ok, get_ok, modify_ok, pure_ok]
  constructor
  · rintro ⟨_, _, ⟨rfl, rfl⟩, _, inner, run, _, _, rfl, rfl, rfl⟩
    exact ⟨inner, run, rfl⟩
  · rintro ⟨inner, run, rfl⟩
    exact ⟨_, _, ⟨rfl, rfl⟩, a, inner, run, (), _, rfl, rfl, rfl⟩

/-- A step on an optional part runs exactly if the part is there. -/
theorem mapM_option_ok {part : Option α} {step : α → LowerM β} {result : Option β} :
    part.mapM step declared before = .ok (result, after) ↔
      (part = none ∧ result = none ∧ before = after) ∨
        ∃ a b, part = some a ∧ result = some b ∧ step a declared before = .ok (b, after) := by
  cases part with
  | none =>
    rw [Option.mapM_none, pure_ok]
    simp [eq_comm]
  | some a =>
    rw [Option.mapM_some, map_eq_pure_bind, bind_ok]
    simp only [pure_ok]
    constructor
    · rintro ⟨b, _, run, rfl, rfl⟩
      exact .inr ⟨a, b, rfl, rfl, run⟩
    · rintro (⟨absurd, _⟩ | ⟨_, b, same, rfl, run⟩)
      · cases absurd
      · cases same
        exact ⟨b, after, run, rfl, rfl⟩

/-- A step that is taken unless the script is rejected. -/
theorem unless_ok {rejects : Bool} {span : Span} {cause : Cause} {next : Unit → LowerM α} {a : α} :
    (if rejects = true then reject span cause >>= next else next ()) declared before =
        .ok (a, after) ↔
      rejects = false ∧ next () declared before = .ok (a, after) := by
  cases rejects with
  | true =>
    simp only [if_true, bind_ok, Bool.true_eq_false, false_and, iff_false]
    rintro ⟨_, _, absurd, -⟩
    exact reject_ok absurd
  | false => simp

/-- A step in place of which the script may be rejected. -/
theorem guard_ok {rejects : Bool} {span : Span} {cause : Cause} {step : LowerM α} {a : α} :
    (if rejects = true then reject span cause else step) declared before = .ok (a, after) ↔
      rejects = false ∧ step declared before = .ok (a, after) := by
  cases rejects with
  | true => simp only [if_true, reject_ok, Bool.true_eq_false, false_and]
  | false => simp

/-! ## Steps that leave the state as it is -/

theorem operator_ok {span : Span} {spelling : String} {op : Option α} {result : α} :
    operator span spelling op declared before = .ok (result, after) ↔
      op = some result ∧ before = after := by
  cases op with
  | none => exact ⟨fun run => absurd run reject_ok, nofun⟩
  | some op => simp only [operator, pure_ok, Option.some.injEq]

theorem plainName_ok {name : Option String} {span : Span} {result : String} :
    plainName name span declared before = .ok (result, after) ↔
      name = some result ∧ before = after := by
  cases name with
  | none => exact ⟨fun run => absurd run reject_ok, nofun⟩
  | some name => simp only [plainName, pure_ok, Option.some.injEq]

theorem plainKey_ok {span : Span} {key : Source.PropertyKey} {result : String} :
    plainKey span key declared before = .ok (result, after) ↔
      key = .name result ∧ before = after := by
  cases key with
  | computed => exact ⟨fun run => absurd run reject_ok, nofun⟩
  | name text => simp only [plainKey, pure_ok, Source.PropertyKey.name.injEq]

/-! ## Steps that take a node -/

/-- The state in which the next node was taken. -/
def State.taken (state : State) : State :=
  { state with next := state.next + 1 }

/-- The state in which an expression has taken the next node and its type is recorded. -/
def State.inferred (declared : Declared) (state : State) (e : Ir.Expr) : State :=
  state.taken.record state.next (inferType declared state.taken.typeOf e)

theorem typed_ok {span : Span} {build : Node → Ir.Expr} {e : Ir.Expr} :
    typed span build declared before = .ok (e, after) ↔
      build ⟨before.next, span⟩ = e ∧ before.inferred declared e = after := by
  simp only [typed, bind_ok, freshNode_ok, read_ok, modify_ok, pure_ok]
  constructor
  · rintro ⟨_, _, ⟨rfl, rfl⟩, _, _, ⟨rfl, rfl⟩, _, _, rfl, rfl, rfl⟩
    exact ⟨rfl, rfl⟩
  · rintro ⟨rfl, rfl⟩
    exact ⟨_, _, ⟨rfl, rfl⟩, _, _, ⟨rfl, rfl⟩, (), _, rfl, rfl, rfl⟩

theorem nameUse_ok {span : Span} {name : String} {e : Ir.Expr} :
    nameUse span name declared before = .ok (e, after) ↔
      .ident ⟨before.next, span⟩ name = e ∧ before.taken.use name before.next = after := by
  simp only [nameUse, bind_ok, freshNode_ok, modify_ok, pure_ok]
  constructor
  · rintro ⟨_, _, ⟨rfl, rfl⟩, _, _, rfl, rfl, rfl⟩
    exact ⟨rfl, rfl⟩
  · rintro ⟨rfl, rfl⟩
    exact ⟨_, _, ⟨rfl, rfl⟩, (), _, rfl, rfl, rfl⟩

theorem placed_ok {span : Span} {build : Node → Ir.Stmt} {s : Ir.Stmt} :
    placed span build declared before = .ok (s, after) ↔
      build ⟨before.next, span⟩ = s ∧ before.taken = after := by
  simp only [placed, bind_ok, freshNode_ok, pure_ok]
  constructor
  · rintro ⟨_, _, ⟨rfl, rfl⟩, rfl, rfl⟩
    exact ⟨rfl, rfl⟩
  · rintro ⟨rfl, rfl⟩
    exact ⟨_, _, ⟨rfl, rfl⟩, rfl, rfl⟩

end ScriptToC.Lowering
