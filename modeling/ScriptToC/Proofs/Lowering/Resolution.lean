import ScriptToC.Proofs.Lowering.Following

/-!
# Names are resolved lexically

Lowering keeps one list of visible names, which every declaration changes, and puts it back after
each construct that has a scope of its own. So it follows the environments that are read off the
syntax: if the visible names are those of an environment before a statement, the names in the
statement are tied as the environment says, and the visible names after it are those of the
environment that its declarations extend (`LowersStmt.follows`). By the same induction this holds of
functions and of whole scripts (`names_resolved_lexically`).
-/

set_option autoImplicit false

namespace ScriptToC.Lowering

open Source
open Ir (Part)

variable {declared : Declared} {env : Env} {start : Nat}

/-! ## Expressions -/

mutual

/-- Lowering an expression ties its names as the environment says. -/
theorem LowersExpr.follows : ∀ {e : Expr} {before after : State} {result : Ir.Expr},
    LowersExpr declared e before result after →
      before.visible = env → before.bindings.size = start →
        before.Follows (e.ties env) env start result.parts after
  | _, _, _, _, .number .., visible, size | _, _, _, _, .string .., visible, size
  | _, _, _, _, .bool .., visible, size | _, _, _, _, .null .., visible, size
  | _, _, _, _, .template .., visible, size | _, _, _, _, .undefined .., visible, size =>
    (State.Follows.refl visible size).expr _ rfl rfl rfl rfl
  | _, _, _, _, .ident span state isVariable, visible, size => by
      rw [Expr.ties, if_neg isVariable]
      exact .use visible size span _
  | _, _, _, _, .paren first, visible, size => by
      have small := first.makes.fresh _ (Ir.Expr.expr_mem_parts _)
      exact (first.follows visible size).paren small.2 _
  | _, _, _, _, .typed first, visible, size => first.follows visible size
  | _, _, _, _, .array each, visible, size => (each.follows visible size).expr _ rfl rfl rfl rfl
  | _, _, _, _, .object each, visible, size => (each.follows visible size).expr _ rfl rfl rfl rfl
  | _, _, _, _, .member first, visible, size => (first.follows visible size).expr _ rfl rfl rfl rfl
  | _, _, _, _, .index first second, visible, size => by
      have object := first.follows visible size
      exact (object.append (second.follows object.visible object.size)).expr _ rfl rfl rfl rfl
  | _, _, _, _, .call first each growth, visible, size => by
      have callee := first.follows visible size
      refine (callee.append (each.follows callee.visible callee.size)).call growth ?_ _ _ _
      intro object grows
      obtain ⟨part, member, rfl⟩ := Ir.Expr.mem_parts_of_growing grows
      exact Nat.lt_of_lt_of_le (first.makes.fresh part member).2 each.grows.next
  | _, _, _, _, .unary _ first, visible, size => (first.follows visible size).expr _ rfl rfl rfl rfl
  | _, _, _, _, .update first, visible, size => (first.follows visible size).expr _ rfl rfl rfl rfl
  | _, _, _, _, .binary _ first second, visible, size
  | _, _, _, _, .logical _ first second, visible, size => by
      have lhs := first.follows visible size
      exact (lhs.append (second.follows lhs.visible lhs.size)).expr _ rfl rfl rfl rfl
  | _, _, _, _, .assign _ first second, visible, size => by
      have target := first.follows visible size
      exact (target.append (second.follows target.visible target.size)).expr _ rfl rfl rfl rfl
  | _, _, _, _, .conditional first second third, visible, size => by
      have test := first.follows visible size
      have yes := second.follows test.visible test.size
      have no := third.follows yes.visible yes.size
      exact ((test.append yes).append no).expr _ rfl rfl rfl rfl

theorem LowersTarget.follows : ∀ {e : Expr} {before after : State} {result : Ir.Expr},
    LowersTarget declared e before result after →
      before.visible = env → before.bindings.size = start →
        before.Follows (e.targetTies env) env start result.parts after
  | _, _, _, _, .ident span name _, visible, size => .use visible size span name
  | _, _, _, _, .member first, visible, size => (first.follows visible size).expr _ rfl rfl rfl rfl
  | _, _, _, _, .index first second, visible, size => by
      have object := first.follows visible size
      exact (object.append (second.follows object.visible object.size)).expr _ rfl rfl rfl rfl

theorem LowersPlain.follows : ∀ {list : List (Option Expr)} {before after : State}
    {result : List Ir.Expr}, LowersPlain declared list before result after →
      before.visible = env → before.bindings.size = start →
        before.Follows (plainTies env list) env start (Ir.listParts result) after
  | _, _, _, _, .nil _, visible, size => .refl visible size
  | _, _, _, _, .cons first others, visible, size => by
      have first := first.follows visible size
      exact first.append (others.follows first.visible first.size)

theorem LowersProperties.follows : ∀ {list : List (Option (Property Expr))}
    {before after : State} {result : List (String × Ir.Expr)},
    LowersProperties declared list before result after →
      before.visible = env → before.bindings.size = start →
        before.Follows (propertyTies env list) env start (Ir.propertyParts result) after
  | _, _, _, _, .nil _, visible, size => .refl visible size
  | _, _, _, _, .cons first others, visible, size => by
      have first := first.follows visible size
      exact first.append (others.follows first.visible first.size)

end

variable {before after : State}

theorem LowersPart.follows {part : Option Expr} {result : Option Ir.Expr}
    (lowers : LowersPart declared part before result after) (visible : before.visible = env)
    (size : before.bindings.size = start) :
    before.Follows (partTies env part) env start (Ir.partsOf result) after := by
  cases lowers with
  | none => exact .refl visible size
  | some first => exact first.follows visible size

/-! ## Statements -/

theorem LowersDeclarators.follows {declarators : List Declarator} {list : List Ir.Declarator}
    (lowers : LowersDeclarators declared declarators before list after)
    (visible : before.visible = env) (size : before.bindings.size = start) :
    before.Follows (declaratorTies env start declarators) (declaratorEnv env start declarators)
      (start + declarators.length) (list.flatMap Ir.Declarator.parts) after := by
  induction lowers generalizing env start with
  | nil => exact .refl visible size
  | @cons declarator _ name _ middle _ init' _ named init _ ih =>
    obtain ⟨span, _, _, _⟩ := declarator
    obtain rfl : _ = some name := named
    have first (type : CType) := (init.follows visible size).declares
      (.declarator ⟨⟨middle.next, span⟩, name, init'⟩) type rfl rfl rfl
    have others := ih (first _).visible (first _).size
    rw [Nat.add_right_comm] at others
    exact (first _).append others

theorem LowersForLeft.follows {element : CType} {left : ForLeft} {result : Ir.ForBinding}
    (lowers : LowersForLeft declared element left before result after)
    (visible : before.visible = env) (size : before.bindings.size = start) :
    before.Follows (left.ties env start) (left.extend env start) (left.freeAfter start)
      result.parts after := by
  cases lowers with
  | declare _ named =>
    rw [ForLeft.ties, ForLeft.extend, named]
    exact (State.Follows.refl visible size).declares _ _ rfl rfl rfl
  | target first => exact first.follows visible size

theorem LowersStart.follows {init : Option ForInit} {result : Option Ir.ForInit}
    (lowers : LowersStart declared init before result after) (visible : before.visible = env)
    (size : before.bindings.size = start) :
    before.Follows (startTies env start init) (startEnv env start init) (startFreeAfter start init)
      (Ir.startParts result) after := by
  cases lowers with
  | none => exact .refl visible size
  | declare declares => exact declares.follows visible size
  | evaluate first => exact first.follows visible size

mutual

/-- Lowering a statement ties its names as the environment says, and leaves behind the environment
that its declarations extend. -/
theorem LowersStmt.follows : ∀ {s : Stmt} {env : Env} {start : Nat} {before after : State}
    {result : Ir.Stmt}, LowersStmt declared s before result after →
      before.visible = env → before.bindings.size = start →
        before.Follows (s.ties env start) (s.extend env start) (s.freeAfter start) result.parts
          after
  | _, _, _, _, _, _, .declaration declares, visible, size =>
    (declares.follows visible size).placed rfl
  | _, _, _, _, _, _, .expression first, visible, size => (first.follows visible size).placed rfl
  | _, _, _, _, _, _, .returnStmt first, visible, size => (first.follows visible size).placed rfl
  | _, _, _, _, _, _, .ifThen head inside, visible, size
  | _, _, _, _, _, _, .whileLoop head inside, visible, size => by
      have test := head.follows visible size
      have body := (inside.follows test.visible test.size).body.leave test.visible
      exact (test.append body).placed rfl
  | _, _, _, _, _, _, .ifElse head yes no, visible, size => by
      have test := head.follows visible size
      have body := (yes.follows test.visible test.size).body.leave test.visible
      have otherwise := (no.follows body.visible body.size).body.leave body.visible
      exact ((test.append body).append otherwise).placed rfl
  | _, _, _, _, _, _, .doLoop inside tail, visible, size => by
      have body := (inside.follows visible size).body.leave visible
      exact (body.append (tail.follows body.visible body.size)).placed rfl
  | _, _, _, _, _, _, .forLoop start head step inside, visible, size => by
      have init := start.follows visible size
      have test := head.follows init.visible init.size
      have update := step.follows test.visible test.size
      have body := (inside.follows update.visible update.size).body.leave update.visible
      exact ((((init.append test).append update).append body).leave visible).placed rfl
  | _, _, _, _, _, _, .forOf first head inside, visible, size => by
      have right := first.follows visible size
      have left := head.follows right.visible right.size
      have body := (inside.follows left.visible left.size).leave left.visible
      exact (((right.append left).append body).leave visible).placed rfl
  | _, _, _, _, _, _, .forIn first head inside, visible, size => by
      have right := first.follows visible size
      have left := head.follows right.visible right.size
      have body := (inside.follows left.visible left.size).body.leave left.visible
      exact (((right.append left).append body).leave visible).placed rfl
  | _, _, _, _, _, _, .switchOn head each, visible, size => by
      have discriminant := head.follows visible size
      have clauses := each.follows discriminant.visible discriminant.size
      exact (discriminant.append (clauses.leave discriminant.visible)).placed rfl
  | _, _, _, _, _, _, .block all, visible, size =>
    ((all.follows visible size).leave visible).placed rfl
  | _, _, _, _, _, _, .breakStmt .., visible, size
  | _, _, _, _, _, _, .continueStmt .., visible, size
  | _, _, _, _, _, _, .emptyStmt .., visible, size => (State.Follows.refl visible size).placed rfl
  | _, _, _, _, _, _, .importFrom _ names _ _, visible, size =>
    (State.Follows.mentions names visible size).placed rfl

theorem LowersStmts.follows : ∀ {body : List Stmt} {env : Env} {start : Nat}
    {before after : State} {result : List Ir.Stmt}, LowersStmts declared body before result after →
      before.visible = env → before.bindings.size = start →
        before.Follows (rowTies env start body) (rowEnv env start body) (rowFreeAfter start body)
          (Ir.rowParts result) after
  | _, _, _, _, _, _, .nil _, visible, size => .refl visible size
  | _, _, _, _, _, _, .typeOnly others, visible, size => others.follows visible size
  | _, _, _, _, _, _, .cons first others, visible, size => by
      have first := first.follows visible size
      exact first.append (others.follows first.visible first.size)

theorem LowersCases.follows : ∀ {cases : List (Case Stmt)} {env : Env} {start : Nat}
    {before after : State} {result : List (Ir.Clause Ir.Stmt)},
    LowersCases declared cases before result after →
      before.visible = env → before.bindings.size = start →
        before.Follows (caseTies env start cases) after.visible (casesFreeAfter start cases)
          (Ir.clauseParts result) after
  | _, _, _, _, _, _, .nil _, _, size => .refl rfl size
  | _, _, _, _, _, _, .cons head inside others, visible, size => by
      have test := head.follows visible size
      have body := inside.follows test.visible test.size
      exact (test.append body).append (others.follows body.visible body.size)

end

/-- After any statement but a declaration the names are visible that were visible before it. -/
theorem visible_lowerStmt {s : Stmt} {result : Ir.Stmt}
    (isOther : ∀ span declarators, s ≠ .declaration span declarators)
    (run : lowerStmt s declared before = .ok (result, after)) : after.visible = before.visible :=
  ((lowersStmt_of_run s run).follows rfl rfl).visible.trans (Stmt.extend_eq _ _ isOther)

/-! ## Scripts -/

theorem LowersParams.follows {params : List Param} {list : List Ir.Param}
    (lowers : LowersParams declared params before list after) (visible : before.visible = env)
    (size : before.bindings.size = start) :
    before.Follows (namesTies start (params.map (·.name)))
      (bindNames env start (params.map (·.name))) (start + params.length) (list.map Part.param)
      after := by
  induction lowers generalizing env start with
  | nil => exact .refl visible size
  | @cons param _ name before _ _ named _ ih =>
    obtain ⟨_, _, _⟩ := param
    obtain rfl : _ = some name := named
    have first (type : CType) := (State.Follows.refl visible size).declares
      (.param ⟨before.next, name, type⟩) type rfl rfl rfl
    have others := ih (first _).visible (first _).size
    rw [Nat.add_right_comm] at others
    exact (first _).append others

/-- A function begins with its parameters alone, and what was visible before it is visible after
it. -/
theorem LowersFunction.follows {f : Function} {result : Option Ir.Function}
    (lowers : LowersFunction declared f before result after) (visible : before.visible = env)
    (size : before.bindings.size = start) :
    before.Follows (f.ties start) env (f.freeAfter start)
      (result.toList.flatMap Ir.Function.parts) after := by
  have mentioned (name : String) := State.Follows.mentions [name] visible size
  rw [Function.ties, Function.freeAfter]
  cases lowers with
  | declaration _ _ bodiless =>
    rw [bodiless]
    exact mentioned _
  | @definition name _ _ _ _ _ _ _ hasBody _ _ params all =>
    have opened := (mentioned name).hidden
    have params' := params.follows opened.visible opened.size
    have body' := all.follows params'.visible params'.size
    have inside := ((opened.append params').append body').leave visible
    rw [Option.toList_some, List.flatMap_singleton, hasBody]
    exact inside.function rfl ((params.grows.trans all.grows).mentioned List.mem_cons_self)

theorem follows_lowerFunction {f : Function} {result : Option Ir.Function}
    (visible : before.visible = env) (size : before.bindings.size = start)
    (run : lowerFunction f declared before = .ok (result, after)) :
    before.Follows (f.ties start) env (f.freeAfter start)
      (result.toList.flatMap Ir.Function.parts) after :=
  (lowersFunction_of_run run).follows visible size

/-- What lowering items says about the bindings of their module, and what the names in its functions
and in the main program are tied to. -/
structure State.Resolves (before : State) (inFunctions inMain : List Tie) (module : Ir.Module)
    (after : State) : Prop where
  binds : before.Binds module.parts after
  inFunctions : after.ties (module.functions.flatMap Ir.Function.parts) = inFunctions
  inMain : after.ties (Ir.rowParts module.topLevel) = inMain

/-- A statement of the main program and the rest of the module. -/
theorem State.Follows.topLevel {before middle after : State} {env : Env} {stop : Nat}
    {ties inFunctions inMain : List Tie} {s : Ir.Stmt} {module : Ir.Module}
    (follows : before.Follows ties env stop s.parts middle) (sound : before.Sound)
    (others : middle.Sound → middle.Resolves inFunctions inMain module after) :
    before.Resolves inFunctions (ties ++ inMain)
      { module with topLevel := s :: module.topLevel } after := by
  have first := follows.binds sound
  have others := others first.sound
  refine ⟨?_, others.inFunctions, ?_⟩
  · exact (first.append others.binds).perm (Ir.parts_topLevel_cons module s).symm
  · rw [Ir.rowParts, State.ties_append, first.makes.ties_eq others.binds.makes.grows,
      follows.tied sound, others.inMain]

/-- Lowering the items of a script resolves the names in them, those of the main program in the
environment that its declarations extend. -/
theorem LowersItems.resolves {items : List Item} {module : Ir.Module}
    (lowers : LowersItems declared items before module after) (visible : before.visible = env)
    (size : before.bindings.size = start) (sound : before.Sound) :
    before.Resolves (functionTies start items) (mainTies env start items) module after := by
  induction lowers generalizing env start with
  | nil => exact ⟨(State.Grows.refl _).binds rfl sound rfl, rfl, rfl⟩
  | function first _ ih =>
    have follows := first.follows visible size
    have binds := follows.binds sound
    have others := ih follows.visible follows.size binds.sound
    refine ⟨?_, ?_, others.inMain⟩
    · have binds := binds.append others.binds
      rwa [Ir.Module.parts, ← List.append_assoc, ← List.flatMap_append] at binds
    · rw [List.flatMap_append, State.ties_append, binds.makes.ties_eq others.binds.makes.grows,
        follows.tied sound, others.inFunctions]
      rfl
  | exportedVariables first _ ih | statement first _ ih =>
    have first := first.follows visible size
    exact first.topLevel sound (ih first.visible first.size)
  | typeOnly _ ih | interface _ ih | typeAlias _ ih => exact ih visible size sound

theorem resolves_lowerItems (items : List Item) {module : Ir.Module}
    (visible : before.visible = env) (size : before.bindings.size = start)
    (run : lowerItems items declared before = .ok (module, after)) (sound : before.Sound) :
    before.Resolves (functionTies start items) (mainTies env start items) module after :=
  (lowersItems_of_run items run).resolves visible size sound

/-- **Names are resolved lexically.** In a script that is lowered, the parts of the functions and of
the main program that declare or use a name are tied to the variables that the names stand for in
their environments. No other part carries a binding, except that parentheses carry what the
expression inside carries. And whatever the script, after any statement but a declaration, and after
any function, the names are visible that were visible before it. -/
theorem names_resolved_lexically {script : Program} {lowered : Lowered}
    (run : lowerProgram script = .ok lowered) :
    (∃ state : State,
      lowerItems script (Declared.ofProgram script) {} = .ok (lowered.module, state) ∧
        lowered.types = state.resolved ∧
        state.ties (lowered.module.functions.flatMap Ir.Function.parts) = functionTies 0 script ∧
        state.ties (Ir.rowParts lowered.module.topLevel) = mainTies [] 0 script ∧
        ∀ part ∈ lowered.module.parts, part.variableName? = none →
          state.bindingOf? part.id = part.wrapped?.bind state.bindingOf?) ∧
      (∀ (s : Stmt) (declared : Declared) (before after : State) (result : Ir.Stmt),
        (∀ span declarators, s ≠ .declaration span declarators) →
          lowerStmt s declared before = .ok (result, after) → after.visible = before.visible) ∧
      ∀ (f : Function) (declared : Declared) (before after : State) (result : Option Ir.Function),
        lowerFunction f declared before = .ok (result, after) → after.visible = before.visible := by
  obtain ⟨module, state, items, rfl⟩ := lowerProgram_ok run
  have resolves := resolves_lowerItems script rfl rfl items State.sound_empty
  refine ⟨⟨state, items, rfl, resolves.inFunctions, resolves.inMain, ?_⟩, ?_, ?_⟩
  · intro part member unnamed
    exact resolves.binds.bindingOf?_of_unnamed member unnamed
  · intro s declared before after result isOther run
    exact visible_lowerStmt isOther run
  · intro f declared before after result run
    exact (follows_lowerFunction rfl rfl run).visible

/-- A script whose variable `x` is shadowed in a block, by a variable that it initializes, and in
the body of a loop:
`let x = true; { let x = (x); x; } for (let i = 0; x; i++) { let x = i; } x = i;`, with a function
`function f(y) { return x && y; }` between the loop and the last statement. -/
def shadowedNames : Program :=
  [.statement (.declaration ⟨0, 13⟩ [⟨⟨4, 12⟩, some "x", none, some (.bool ⟨8, 12⟩ true)⟩]),
    .statement (.block ⟨14, 33⟩ [
      .declaration ⟨16, 28⟩ [⟨⟨20, 27⟩, some "x", none,
        some (.paren ⟨24, 27⟩ (.ident ⟨25, 26⟩ "x"))⟩],
      .expression ⟨29, 31⟩ (.ident ⟨29, 30⟩ "x")]),
    .statement (.forLoop ⟨34, 72⟩
      (some (.declare [⟨⟨43, 48⟩, some "i", none, some (.number ⟨47, 48⟩ (some ⟨0, 0⟩) "0")⟩]))
      (some (.ident ⟨50, 51⟩ "x")) (some (.update ⟨53, 56⟩ "++" false (.ident ⟨53, 54⟩ "i")))
      (.block ⟨58, 72⟩ [
        .declaration ⟨60, 70⟩ [⟨⟨64, 69⟩, some "x", none, some (.ident ⟨68, 69⟩ "i")⟩]])),
    .function ⟨⟨73, 105⟩, some "f", [⟨⟨84, 85⟩, some "y", none⟩], false, false, none,
      some [.returnStmt ⟨89, 103⟩
        (some (.logical ⟨96, 102⟩ "&&" (.ident ⟨96, 97⟩ "x") (.ident ⟨101, 102⟩ "y")))]⟩,
    .statement (.expression ⟨106, 112⟩
      (.assign ⟨106, 111⟩ "=" (.ident ⟨106, 107⟩ "x") (.ident ⟨110, 111⟩ "i")))]

/-- The variables are the outer `x`, that of the block, `i`, the `x` of the loop, and `y`. -/
theorem names_resolved_lexically_shadowed : ∃ lowered,
    lowerProgram shadowedNames = .ok lowered ∧
      (∃ state : State,
        lowerItems shadowedNames (Declared.ofProgram shadowedNames) {} =
            .ok (lowered.module, state) ∧
          lowered.types = state.resolved ∧
          state.ties (lowered.module.functions.flatMap Ir.Function.parts) =
            [("y", some 4), ("x", none), ("y", some 4)] ∧
          state.ties (Ir.rowParts lowered.module.topLevel) =
            [("x", some 0), ("x", some 1), ("x", some 0), ("x", some 1), ("i", some 2),
              ("x", some 0), ("i", some 2), ("x", some 3), ("i", some 2), ("x", some 0),
              ("i", none)] ∧
          ∀ part ∈ lowered.module.parts, part.variableName? = none →
            state.bindingOf? part.id = part.wrapped?.bind state.bindingOf?) := by
  have accepted : (lowerProgram shadowedNames).toOption.isSome = true := by decide +kernel
  cases run : lowerProgram shadowedNames with
  | error cause =>
    rw [run] at accepted
    cases accepted
  | ok lowered =>
    obtain ⟨⟨state, items, types, inFunctions, inMain, others⟩, -⟩ := names_resolved_lexically run
    have functions : functionTies 0 shadowedNames =
        [("y", some 4), ("x", none), ("y", some 4)] := by decide
    have main : mainTies [] 0 shadowedNames =
        [("x", some 0), ("x", some 1), ("x", some 0), ("x", some 1), ("i", some 2),
          ("x", some 0), ("i", some 2), ("x", some 3), ("i", some 2), ("x", some 0),
          ("i", none)] := by decide
    exact ⟨lowered, rfl, state, items, types, inFunctions.trans functions, inMain.trans main,
      others⟩

end ScriptToC.Lowering
