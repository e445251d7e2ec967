import ScriptToC.Proofs.Lowering.Following

/-!
# The steps of lowering

Lowering is a row of small steps (`State.Step`): a part is made and something is said about it,
names are mentioned, or parts are listed in another order. A scope is a row of its own, after which
what was visible before is visible again (`State.Run`). So whatever each step and the end of a scope
keep holds after a run (`State.Run.invariant`), with no need to go through the syntax again: that is
done once, for the rows of steps that lowering a script takes (`traces_lowerItems`).
-/

set_option autoImplicit false

namespace ScriptToC.Ir.Part

/-- The part is a function or a statement, which has no type. -/
def isPlaced : Part → Bool
  | function _ | stmt _ => true
  | _ => false

/-- The variable of a loop over the elements of an array, with the expression for the array. -/
def loop? : Part → Option (Declarator × Expr)
  | stmt (.forOf _ (.declare loopVariable) right _) => some (loopVariable, right)
  | _ => none

/-- What a declared variable is initialized with. -/
def init? : Part → Option Expr
  | declarator d => d.init
  | _ => none

end ScriptToC.Ir.Part

namespace ScriptToC.Lowering

open Source
open Ir (Part)

variable {declared : Declared} {before middle after : State}
variable {known known' parts others : List Part} {part : Part}

namespace State

/-- The state in which the array has grown that a call of an expression grows, if there is one. -/
def afterCall (state : State) (e : Ir.Expr) : State :=
  ((Part.expr e).grown?.bind state.bindingOf?).elim state state.grow

theorem afterCall_of_silent (state : State) {e : Ir.Expr} (silent : (Part.expr e).grown? = none) :
    state.afterCall e = state := by
  rw [afterCall, silent]
  rfl

theorem afterCall_next (state : State) (e : Ir.Expr) :
    (state.afterCall e).next = state.next := by
  rw [afterCall]
  cases (Part.expr e).grown?.bind state.bindingOf? <;> rfl

theorem afterCall_types (state : State) (e : Ir.Expr) :
    (state.afterCall e).types = state.types := by
  rw [afterCall]
  cases (Part.expr e).grown?.bind state.bindingOf? <;> rfl

theorem grows_afterCall (state : State) (e : Ir.Expr) : state.Grows (state.afterCall e) := by
  rw [afterCall]
  cases (Part.expr e).grown?.bind state.bindingOf? with
  | none => exact .refl state
  | some binding => exact state.grows_grow binding

/-! ## Steps -/

/-- One step from a state, with the parts that are known there, to the next. -/
inductive Step (declared : Declared) : State → List Part → State → List Part → Prop
  /-- The parts are listed in another order. -/
  | reorder {state : State} {known known' : List Part} (perm : known.Perm known') :
    Step declared state known state known'
  | mention (state : State) (known : List Part) (names : List String) :
    Step declared state known (names.foldl State.mention state) known
  /-- A function sees nothing of what is around it. -/
  | hide (state : State) (known : List Part) :
    Step declared state known { state with visible := [] } known
  /-- A function or a statement takes a node. -/
  | place {state : State} {known : List Part} {part : Part} (placed : part.isPlaced = true)
    (isNew : part.id = state.next) (mentioned : ∀ name ∈ part.name?, name ∈ state.mentioned)
    (loops : ∀ pair ∈ part.loop?, .declarator pair.1 ∈ known ∧ .expr pair.2 ∈ known ∧
      state.types.find? pair.1.node.id = some (elementType (state.typeOf pair.2.id))) :
    Step declared state known state.taken (part :: known)
  | use (state : State) (known : List Part) (span : Span) (name : String) :
    Step declared state known (state.taken.use name state.next)
      (.expr (.ident ⟨state.next, span⟩ name) :: known)
  /-- An expression is put in parentheses. -/
  | wrap {state : State} {known : List Part} {inner : Ir.Expr} (span : Span)
    (inside : ∀ part ∈ inner.parts, part ∈ known) :
    Step declared state known (state.taken.shareType state.next inner.id)
      (.expr (.paren ⟨state.next, span⟩ inner) :: known)
  /-- An expression is put together from its parts. -/
  | build {state : State} {known : List Part} {e : Ir.Expr} (isNew : e.id = state.next)
    (unnamed : (Part.expr e).name? = none) (unwrapped : (Part.expr e).wrapped? = none)
    (inside : ∀ part ∈ e.parts.tail, part ∈ known) :
    Step declared state known
      ((state.afterCall e).taken.record state.next (inferType declared state.typeOf e))
      (.expr e :: known)
  | declare {state : State} {known : List Part} {part : Part} {name : String} (type : CType)
    (declares : part.declares = true) (isNew : part.id = state.next)
    (named : part.name? = some name) (inside : ∀ init ∈ part.init?, .expr init ∈ known) :
    Step declared state known (state.taken.declare name type state.next) (part :: known)

/-- A step only adds. -/
theorem Step.grows (step : Step declared before known after known') : before.Grows after := by
  cases step with
  | reorder perm => exact .refl before
  | mention names => exact grows_mentions _ before
  | hide => exact before.grows_visible []
  | place => exact before.grows_taken
  | use => exact before.grows_use _
  | wrap => exact before.grows_shareType _
  | @build e isNew unnamed unwrapped inside =>
    refine (before.grows_afterCall e).trans ?_
    rw [← before.afterCall_next e]
    exact grows_record _ _
  | declare type => exact before.grows_declare _ type

/-- A row of steps, with scopes in it. -/
inductive Run (declared : Declared) : State → List Part → State → List Part → Prop
  | refl (state : State) (known : List Part) : Run declared state known state known
  | single {before after : State} {known known' : List Part}
    (step : Step declared before known after known') : Run declared before known after known'
  | trans {before middle after : State} {known known' known'' : List Part}
    (first : Run declared before known middle known')
    (second : Run declared middle known' after known'') : Run declared before known after known''
  /-- What was visible before a scope is visible after it. -/
  | scope {before inner : State} {known known' : List Part}
    (inside : Run declared before known inner known') :
    Run declared before known { inner with visible := before.visible } known'

/-- A run only adds. -/
theorem Run.grows (run : Run declared before known after known') : before.Grows after := by
  induction run with
  | refl state => exact .refl state
  | single step => exact step.grows
  | trans _ _ ih ih' => exact ih.trans ih'
  | scope _ ih => exact ih.trans (grows_visible _ _)

/-- There are no fewer variables later. -/
theorem Grows.size_le (grows : before.Grows after) :
    before.bindings.size ≤ after.bindings.size := by
  by_contra less
  have small : after.bindings.size < before.bindings.size := Nat.lt_of_not_le less
  have none : after.bindings[after.bindings.size]? = none := Array.getElem?_eq_none (Nat.le_refl _)
  rcases grows.bound (Array.getElem?_eq_getElem small) with same | onHeap
  · rw [none] at same
    cases same
  · rw [none] at onHeap
    cases onHeap

/-- What each step and the end of each scope keep holds after a run. -/
theorem Run.invariant {P : State → List Part → Prop}
    (steps : ∀ {before after : State} {known known' : List Part},
      Step declared before known after known' → P before known → P after known')
    (leaves : ∀ {before inner : State} {known known' : List Part},
      before.bindings.size ≤ inner.bindings.size → P before known → P inner known' →
        P { inner with visible := before.visible } known')
    (run : Run declared before known after known') (start : P before known) : P after known' := by
  induction run with
  | refl => exact start
  | single step => exact steps step start
  | trans _ _ ih ih' => exact ih' (ih start)
  | scope inside ih => exact leaves inside.grows.size_le start (ih start)

/-! ## Rows of steps that make parts -/

/-- A run that makes the parts, whatever parts there are before it. -/
def Traces (declared : Declared) (before : State) (parts : List Part) (after : State) : Prop :=
  ∀ known : List Part, Run declared before known after (parts ++ known)

namespace Traces

theorem refl (state : State) : Traces declared state [] state :=
  fun known => .refl state known

theorem append (traces : Traces declared before parts middle)
    (traces' : Traces declared middle others after) :
    Traces declared before (parts ++ others) after := by
  intro known
  have order : List.Perm (others ++ (parts ++ known)) (parts ++ others ++ known) := by
    rw [List.append_assoc]
    exact List.perm_append_comm_assoc others parts known
  exact .trans ((traces known).trans (traces' _)) (.single (.reorder order))

/-- One more part, or none, after the others. -/
theorem step {list : List Part} (traces : Traces declared before parts middle)
    (next : ∀ known, Step declared middle (parts ++ known) after (list ++ known)) :
    Traces declared before list after :=
  fun known => (traces known).trans (.single (next known))

/-- The parts in another order. -/
theorem perm (traces : Traces declared before parts after) (perm : parts.Perm others) :
    Traces declared before others after :=
  traces.step fun known => .reorder (perm.append_right known)

/-- A scope of its own. -/
theorem leave (traces : Traces declared before parts after) :
    Traces declared before parts (after.leave before) :=
  fun known => .scope (traces known)

/-- A statement that stands under a condition or a loop. -/
theorem body {s : Ir.Stmt} (traces : Traces declared before s.parts after) :
    Traces declared before (Ir.bodyParts s.toBody) after := by
  rwa [Ir.bodyParts_toBody]

/-- A statement that is no loop over the elements of an array. -/
theorem placed (traces : Traces declared before parts middle) {s : Ir.Stmt}
    (isNew : (Part.stmt s).id = middle.next) (unlooped : (Part.stmt s).loop? = none) :
    Traces declared before (.stmt s :: parts) middle.taken := by
  refine traces.step fun known => .place rfl isNew nofun ?_
  rw [unlooped]
  nofun

theorem function (traces : Traces declared before parts middle) {f : Ir.Function}
    (isNew : (Part.function f).id = middle.next) (mentioned : f.name ∈ middle.mentioned) :
    Traces declared before (.function f :: parts) middle.taken := by
  refine traces.step fun known => .place rfl isNew ?_ nofun
  rintro _ ⟨⟩
  exact mentioned

/-- An expression, from its parts. -/
theorem expr (traces : Traces declared before parts middle) {e : Ir.Expr}
    (isNew : e.id = middle.next) (unnamed : (Part.expr e).name? = none)
    (unwrapped : (Part.expr e).wrapped? = none) (silent : (Part.expr e).grown? = none)
    (inside : e.parts = .expr e :: parts) :
    Traces declared before e.parts
      (middle.inferred declared e) := by
  rw [inside]
  refine traces.step fun known => ?_
  have step : Step declared middle (parts ++ known) _ _ :=
    .build isNew unnamed unwrapped (by
      rw [inside]
      exact fun part member => List.mem_append_left known member)
  rwa [afterCall_of_silent _ silent] at step

/-- A call, which may grow an array. -/
theorem call (traces : Traces declared before parts middle) {callee : Ir.Expr} {u : Unit}
    (growth : noteGrowth callee declared middle = .ok (u, after)) (span : Span)
    (args : List Ir.Expr) (inside : parts = callee.parts ++ Ir.listParts args) :
    Traces declared before (Ir.Expr.call ⟨after.next, span⟩ callee args).parts
      (after.inferred declared (.call ⟨after.next, span⟩ callee args)) := by
  subst inside
  refine traces.step fun known => ?_
  have grown : ∀ node : Node, middle.afterCall (.call node callee args) = after :=
    fun node => noteGrowth_ok.1 growth
  have same : after.next = middle.next := by
    rw [← grown default, afterCall_next]
  have types : after.taken.typeOf = middle.typeOf := by
    funext id
    change (after.types.find? id).getD .unknown = (middle.types.find? id).getD .unknown
    rw [← grown default, afterCall_types]
  have step : Step declared middle (callee.parts ++ Ir.listParts args ++ known) _ _ :=
    .build (e := .call ⟨middle.next, span⟩ callee args) rfl rfl rfl
      fun part member => List.mem_append_left known member
  rwa [grown, ← types, ← same] at step

/-- An expression in parentheses. -/
theorem paren {inner : Ir.Expr} (traces : Traces declared before inner.parts middle)
    (span : Span) :
    Traces declared before (Ir.Expr.paren ⟨middle.next, span⟩ inner).parts
      (middle.taken.shareType middle.next inner.id) :=
  traces.step fun known => .wrap span fun _ member => List.mem_append_left known member

/-- A use of a name. -/
theorem use (state : State) (span : Span) (name : String) :
    Traces declared state (Ir.Expr.ident ⟨state.next, span⟩ name).parts
      (state.taken.use name state.next) :=
  (refl state).step fun known => .use state known span name

/-- A variable that is declared. -/
theorem declares (traces : Traces declared before parts middle) {part : Part} {name : String}
    (type : CType) (declares : part.declares = true) (isNew : part.id = middle.next)
    (named : part.name? = some name) (inside : ∀ init ∈ part.init?, .expr init ∈ parts) :
    Traces declared before (part :: parts) (middle.taken.declare name type middle.next) :=
  traces.step fun known => .declare type declares isNew named fun init isInit =>
    List.mem_append_left known (inside init isInit)

/-- A loop over the elements of an array, whose variable has their type. -/
theorem forOf (traces : Traces declared before parts middle) {node : Node}
    {left : Ir.ForBinding} {right : Ir.Expr} {body : Ir.Stmt} (isNew : node.id = middle.next)
    (inside : parts = right.parts ++ left.parts ++ body.parts)
    (typed : ∀ declarator, left = .declare declarator →
      middle.types.find? declarator.node.id = some (elementType (middle.typeOf right.id))) :
    Traces declared before (Ir.Stmt.forOf node left right body).parts middle.taken := by
  subst inside
  refine traces.step fun known => .place rfl isNew nofun ?_
  cases left with
  | target e => nofun
  | declare declarator =>
    rintro _ ⟨⟩
    have isRight := right.expr_mem_parts
    refine ⟨?_, ?_, typed declarator rfl⟩
    · simp [Ir.ForBinding.parts, Ir.Declarator.parts]
    · simp [isRight]

end Traces
end State

end ScriptToC.Lowering
