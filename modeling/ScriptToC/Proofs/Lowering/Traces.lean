import ScriptToC.Proofs.Lowering.Steps

/-!
# Lowering takes its steps

Lowering an expression or a statement is a row of the steps that `State.Step` lists, and makes the
parts of what it results in (`LowersExpr.traces`, `LowersStmt.traces`). So is lowering a whole
script (`traces_lowerItems`): from here on, what is to be shown of all scripts that are lowered
needs to be shown of the steps only.
-/

set_option autoImplicit false

namespace ScriptToC.Lowering

open Source
open Ir (Part)
open State (Traces)

variable {declared : Declared}

/-! ## Expressions -/

mutual

/-- Lowering an expression is a row of steps. -/
theorem LowersExpr.traces : ∀ {e : Expr} {before after : State} {result : Ir.Expr},
    LowersExpr declared e before result after → Traces declared before result.parts after
  | _, _, _, _, .number .. | _, _, _, _, .string .. | _, _, _, _, .bool .. | _, _, _, _, .null ..
  | _, _, _, _, .template .. | _, _, _, _, .undefined .. =>
    (Traces.refl _).expr rfl rfl rfl rfl rfl
  | _, _, _, _, .ident span state _ => .use state span _
  | _, _, _, _, .paren first => first.traces.paren _
  | _, _, _, _, .typed first => first.traces
  | _, _, _, _, .array each => each.traces.expr rfl rfl rfl rfl rfl
  | _, _, _, _, .object each => each.traces.expr rfl rfl rfl rfl rfl
  | _, _, _, _, .member first => first.traces.expr rfl rfl rfl rfl rfl
  | _, _, _, _, .index first second =>
    (first.traces.append second.traces).expr rfl rfl rfl rfl rfl
  | _, _, _, _, .call first each growth => (first.traces.append each.traces).call growth _ _ rfl
  | _, _, _, _, .unary _ first => first.traces.expr rfl rfl rfl rfl rfl
  | _, _, _, _, .update first => first.traces.expr rfl rfl rfl rfl rfl
  | _, _, _, _, .binary _ first second | _, _, _, _, .logical _ first second =>
    (first.traces.append second.traces).expr rfl rfl rfl rfl rfl
  | _, _, _, _, .assign _ first second =>
    (first.traces.append second.traces).expr rfl rfl rfl rfl rfl
  | _, _, _, _, .conditional first second third =>
    ((first.traces.append second.traces).append third.traces).expr rfl rfl rfl rfl rfl

theorem LowersTarget.traces : ∀ {e : Expr} {before after : State} {result : Ir.Expr},
    LowersTarget declared e before result after → Traces declared before result.parts after
  | _, _, _, _, .ident span name state => .use state span name
  | _, _, _, _, .member first => first.traces.expr rfl rfl rfl rfl rfl
  | _, _, _, _, .index first second =>
    (first.traces.append second.traces).expr rfl rfl rfl rfl rfl

theorem LowersPlain.traces : ∀ {list : List (Option Expr)} {before after : State}
    {result : List Ir.Expr}, LowersPlain declared list before result after →
      Traces declared before (Ir.listParts result) after
  | _, _, _, _, .nil state => .refl state
  | _, _, _, _, .cons first others => first.traces.append others.traces

theorem LowersProperties.traces : ∀ {list : List (Option (Property Expr))} {before after : State}
    {result : List (String × Ir.Expr)}, LowersProperties declared list before result after →
      Traces declared before (Ir.propertyParts result) after
  | _, _, _, _, .nil state => .refl state
  | _, _, _, _, .cons first others => first.traces.append others.traces

end

variable {before after : State}

/-- Lowering a part that may be missing is a row of steps. -/
theorem LowersPart.traces {part : Option Expr} {result : Option Ir.Expr}
    (lowers : LowersPart declared part before result after) :
    Traces declared before (Ir.partsOf result) after := by
  cases lowers with
  | none => exact .refl before
  | some first => exact first.traces

/-! ## Statements -/

theorem LowersDeclarators.traces {declarators : List Declarator} {list : List Ir.Declarator}
    (lowers : LowersDeclarators declared declarators before list after) :
    Traces declared before (list.flatMap Ir.Declarator.parts) after := by
  induction lowers with
  | nil state => exact .refl state
  | cons _ init _ ih =>
    refine Traces.append ?_ ih
    refine init.traces.declares _ rfl rfl rfl ?_
    rintro _ ⟨⟩
    exact Ir.Expr.expr_mem_parts _

/-- Lowering what a loop over a collection assigns to is a row of steps. -/
theorem LowersForLeft.traces {element : CType} {left : ForLeft} {result : Ir.ForBinding}
    (lowers : LowersForLeft declared element left before result after) :
    Traces declared before result.parts after := by
  cases lowers with
  | declare => exact (Traces.refl before).declares _ rfl rfl rfl nofun
  | target first => exact first.traces

/-- A variable that a loop over a collection declares has the type of the elements. -/
theorem LowersForLeft.find?_types {element : CType} {left : ForLeft} {declarator : Ir.Declarator}
    (lowers : LowersForLeft declared element left before (.declare declarator) after) :
    declarator.node.id < after.next ∧ after.types.find? declarator.node.id = some element := by
  cases lowers
  exact ⟨Nat.lt_succ_self _, (TypeTable.find?_insert _ _ _ _).trans (if_pos rfl)⟩

theorem LowersStart.traces {init : Option ForInit} {result : Option Ir.ForInit}
    (lowers : LowersStart declared init before result after) :
    Traces declared before (Ir.startParts result) after := by
  cases lowers with
  | none => exact .refl before
  | declare declares => exact declares.traces
  | evaluate first => exact first.traces

mutual

/-- Lowering a statement is a row of steps. -/
theorem LowersStmt.traces : ∀ {s : Stmt} {before after : State} {result : Ir.Stmt},
    LowersStmt declared s before result after → Traces declared before result.parts after
  | _, _, _, _, .declaration declares => declares.traces.placed rfl rfl
  | _, _, _, _, .expression first => first.traces.placed rfl rfl
  | _, _, _, _, .returnStmt first => first.traces.placed rfl rfl
  | _, _, _, _, .ifThen head inside | _, _, _, _, .whileLoop head inside =>
    (head.traces.append inside.traces.body.leave).placed rfl rfl
  | _, _, _, _, .ifElse head yes no => by
      have body := head.traces.append yes.traces.body.leave
      exact (body.append no.traces.body.leave).placed rfl rfl
  | _, _, _, _, .doLoop inside tail =>
    (inside.traces.body.leave.append tail.traces).placed rfl rfl
  | _, _, _, _, .forLoop start head step inside => by
      have head := (start.traces.append head.traces).append step.traces
      exact (head.append inside.traces.body.leave).leave.placed rfl rfl
  | _, _, _, _, @LowersStmt.forOf _ _ _ _ _ _ middle _ inner _ right' _ first head inside => by
      have traces := first.traces.append head.traces
      refine (traces.append inside.traces.leave).leave.forOf rfl rfl ?_
      -- Neither the variable nor the array gets another type in what follows.
      rintro declarator rfl
      obtain ⟨isKnown, isElement⟩ := head.find?_types
      have small : right'.id < middle.next := (first.makes.fresh _ right'.expr_mem_parts).2
      have same : inner.typeOf right'.id = middle.typeOf right'.id :=
        (head.grows.trans inside.grows).typeOf_eq small
      change inner.types.find? declarator.node.id = some (elementType (inner.typeOf right'.id))
      rw [inside.grows.typed isKnown, isElement, same]
  | _, _, _, _, .forIn first head inside => by
      have head := first.traces.append head.traces
      exact (head.append inside.traces.body.leave).leave.placed rfl rfl
  | _, _, _, _, .switchOn head each => (head.traces.append each.traces.leave).placed rfl rfl
  | _, _, _, _, .breakStmt .. | _, _, _, _, .continueStmt .. | _, _, _, _, .emptyStmt .. =>
    (Traces.refl _).placed rfl rfl
  | _, _, _, _, .block all => all.traces.leave.placed rfl rfl
  | _, _, _, _, .importFrom _ names _ state => by
      have mentions : Traces declared state [] (names.foldl State.mention state) :=
        (Traces.refl state).step fun known => .mention state known names
      exact mentions.placed rfl rfl

theorem LowersStmts.traces : ∀ {body : List Stmt} {before after : State} {result : List Ir.Stmt},
    LowersStmts declared body before result after →
      Traces declared before (Ir.rowParts result) after
  | _, _, _, _, .nil state => .refl state
  | _, _, _, _, .typeOnly others => others.traces
  | _, _, _, _, .cons first others => first.traces.append others.traces

theorem LowersCases.traces : ∀ {cases : List (Case Stmt)} {before after : State}
    {result : List (Ir.Clause Ir.Stmt)}, LowersCases declared cases before result after →
      Traces declared before (Ir.clauseParts result) after
  | _, _, _, _, .nil state => .refl state
  | _, _, _, _, .cons head inside others =>
    (head.traces.append inside.traces).append others.traces

end

/-! ## Scripts -/

theorem LowersParams.traces {params : List Param} {list : List Ir.Param}
    (lowers : LowersParams declared params before list after) :
    Traces declared before (list.map Part.param) after := by
  induction lowers with
  | nil state => exact .refl state
  | cons _ _ ih =>
    rw [List.map_cons, ← List.singleton_append]
    exact ((Traces.refl _).declares _ rfl rfl rfl (by rintro _ ⟨⟩)).append ih

/-- Lowering a function is a row of steps. -/
theorem LowersFunction.traces {f : Function} {result : Option Ir.Function}
    (lowers : LowersFunction declared f before result after) :
    Traces declared before (result.toList.flatMap Ir.Function.parts) after := by
  have mentions (name : String) : Traces declared before [] (before.mention name) :=
    (Traces.refl before).step fun known => .mention before known [name]
  cases lowers with
  | declaration => exact mentions _
  | definition _ _ _ _ params all =>
    have hidden (state : State) : Traces declared state [] state.hidden :=
      (Traces.refl state).step fun known => .hide state known
    have inside := params.traces.append all.traces
    have mentioned := (params.grows.trans all.grows).mentioned List.mem_cons_self
    rw [Option.toList_some, List.flatMap_singleton]
    exact ((mentions _).append ((hidden _).append inside)).leave.function rfl mentioned

/-- A statement of the main program and the rest of the module. -/
theorem State.Traces.topLevel {middle : State} {s : Ir.Stmt} {module : Ir.Module}
    (traces : Traces declared before s.parts middle)
    (traces' : Traces declared middle module.parts after) :
    Traces declared before { module with topLevel := s :: module.topLevel }.parts after :=
  (traces.append traces').perm (Ir.parts_topLevel_cons module s).symm

/-- Lowering the items of a script is a row of steps. -/
theorem LowersItems.traces {items : List Item} {module : Ir.Module}
    (lowers : LowersItems declared items before module after) :
    Traces declared before module.parts after := by
  induction lowers with
  | nil state => exact .refl state
  | function first _ ih =>
    have traces := first.traces.append ih
    rwa [Ir.Module.parts, ← List.append_assoc, ← List.flatMap_append] at traces
  | exportedVariables first _ ih | statement first _ ih => exact first.traces.topLevel ih
  | typeOnly _ ih | interface _ ih | typeAlias _ ih => exact ih

/-- Lowering a script is a row of steps. -/
theorem traces_lowerItems {items : List Item} {module : Ir.Module}
    (run : lowerItems items declared before = .ok (module, after)) :
    Traces declared before module.parts after :=
  (lowersItems_of_run items run).traces

end ScriptToC.Lowering
