import ScriptToC.Lowering.Program
import ScriptToC.Proofs.Lowering.Declarations

/-!
# Lowering looks declarations up

Lowering uses what is declared only to look names up: the type of a field, the result of a function
that is called, and the meaning of an annotation. Two collections of declarations in which the same
is found under every name therefore lower every script in the same way (`lowerItems_tables`).
-/

set_option autoImplicit false

namespace ScriptToC.Lowering

open Source

variable {declared declared' : Declared}

/-! ## Lookups -/

theorem Declared.returnType?_tables (same : declared.tables = declared'.tables) (name : String) :
    declared.returnType? name = declared'.returnType? name :=
  congrFun (congrArg Tables.returns same) name

theorem Declared.fieldType_eq (declared : Declared) (struct field : String) :
    declared.fieldType struct field =
      ((declared.tables.structs struct).bind fun fields => fields field).getD .unknown := by
  rw [fieldType, tables, Option.bind_map]
  rfl

theorem Declared.fieldType_tables (same : declared.tables = declared'.tables)
    (struct field : String) :
    declared.fieldType struct field = declared'.fieldType struct field := by
  rw [fieldType_eq, fieldType_eq, same]

theorem typeOfExpr_tables (same : declared.tables = declared'.tables) :
    typeOfExpr declared.aliases = typeOfExpr declared'.aliases := by
  funext type
  refine (typeOfExpr_eq_iff type).mpr fun name _ => ?_
  exact congrArg (Option.getD · (.struct name)) (congrFun (congrArg Tables.aliases same) name)

/-- The type of an expression is inferred alike. -/
theorem inferType_tables (same : declared.tables = declared'.tables) (typeOf : NodeId → CType)
    (e : Ir.Expr) : inferType declared typeOf e = inferType declared' typeOf e := by
  have fields := Declared.fieldType_tables same
  have returns := Declared.returnType?_tables same
  cases e with
  | call node callee args => cases callee <;> simp only [inferType, returns]
  | member | index => simp only [inferType, fields]
  | unary node op arg => cases op <;> rfl
  | _ => rfl

/-! ## Expressions -/

/-- A step with a second one after it reads the declarations in both. -/
theorem bind_declared {α β : Type} (first : LowerM α) (next : α → LowerM β) (declared : Declared) :
    (first >>= next) declared = first declared >>= fun result => next result declared :=
  rfl

theorem ite_declared {α : Type} (condition : Prop) [Decidable condition] (yes no : LowerM α)
    (declared : Declared) :
    (if condition then yes else no) declared = if condition then yes declared else no declared :=
  apply_ite (fun step : LowerM α => step declared) condition yes no

theorem read_declared (declared : Declared) : (read : LowerM Declared) declared = pure declared :=
  rfl

theorem typed_tables (same : declared.tables = declared'.tables) (span : Span)
    (build : Node → Ir.Expr) : typed span build declared = typed span build declared' := by
  have inferred := funext₂ (inferType_tables same)
  funext state
  change Except.ok (build ⟨state.next, span⟩, State.record { state with next := state.next + 1 }
    state.next (inferType declared state.typeOf (build ⟨state.next, span⟩))) = _
  rw [inferred]
  rfl

theorem operator_read (declared declared' : Declared) {α : Type} (span : Span) (spelling : String)
    (op : Option α) : operator span spelling op declared = operator span spelling op declared' := by
  cases op <;> rfl

theorem noteGrowth_read (declared declared' : Declared) (callee : Ir.Expr) :
    noteGrowth callee declared = noteGrowth callee declared' := by
  unfold noteGrowth
  split
  · split <;> rfl
  · rfl

theorem plainKey_read (declared declared' : Declared) (span : Span) (key : PropertyKey) :
    plainKey span key declared = plainKey span key declared' := by
  cases key <;> rfl

mutual

/-- An expression is lowered alike. -/
theorem lowerExpr_tables (same : declared.tables = declared'.tables) :
    ∀ e : Expr, lowerExpr e declared = lowerExpr e declared'
  | .number .. | .string .. | .bool .. | .null _ => by
      simp only [lowerExpr, typed_tables same]
  | .template _ _ interpolated => by
      rw [lowerExpr]
      split
      · rfl
      · exact typed_tables same ..
  | .ident .. => by
      rw [lowerExpr]
      split
      · exact typed_tables same ..
      · rfl
  | .paren _ inner => by
      simp only [lowerExpr, bind_declared, lowerExpr_tables same inner]
      rfl
  | .typed _ inner => by
      simp only [lowerExpr, lowerExpr_tables same inner]
  | .array _ elements => by
      simp only [lowerExpr, bind_declared, lowerPlain_tables same elements, typed_tables same]
  | .object _ properties => by
      simp only [lowerExpr, bind_declared, lowerProperties_tables same properties,
        typed_tables same]
  | .member _ object _ => by
      simp only [lowerExpr, bind_declared, lowerExpr_tables same object, typed_tables same]
  | .index _ object key => by
      simp only [lowerExpr, bind_declared, lowerExpr_tables same object, lowerExpr_tables same key,
        typed_tables same]
  | .call _ callee args => by
      simp only [lowerExpr, bind_declared, lowerExpr_tables same callee,
        lowerPlain_tables same args, noteGrowth_read declared declared', typed_tables same]
  | .unary _ _ arg => by
      simp only [lowerExpr, bind_declared, operator_read declared declared',
        lowerExpr_tables same arg, typed_tables same]
  | .update _ _ _ target => by
      simp only [lowerExpr, bind_declared, lowerTarget_tables same target, typed_tables same]
  | .binary _ _ lhs rhs | .logical _ _ lhs rhs => by
      simp only [lowerExpr, bind_declared, operator_read declared declared',
        lowerExpr_tables same lhs, lowerExpr_tables same rhs, typed_tables same]
  | .assign _ _ target value => by
      have targets := lowerTarget_tables same target
      rw [lowerExpr, bind_declared, bind_declared, operator_read declared declared']
      refine congrArg (operator _ _ _ declared' >>= ·) (funext fun op => ?_)
      split
      · rfl
      · simp only [bind_declared, targets, lowerExpr_tables same value, typed_tables same]
  | .conditional _ test yes no => by
      simp only [lowerExpr, bind_declared, lowerExpr_tables same test, lowerExpr_tables same yes,
        lowerExpr_tables same no, typed_tables same]
  | .pattern _ | .odd .. => by
      simp only [lowerExpr]
      rfl

theorem lowerTarget_tables (same : declared.tables = declared'.tables) :
    ∀ e : Expr, lowerTarget e declared = lowerTarget e declared'
  | .ident .. => by
      simp only [lowerTarget]
      rfl
  | .member _ object _ => by
      simp only [lowerTarget, bind_declared, lowerExpr_tables same object, typed_tables same]
  | .index _ object key => by
      simp only [lowerTarget, bind_declared, lowerExpr_tables same object,
        lowerExpr_tables same key, typed_tables same]
  | .number .. | .string .. | .bool .. | .null _ | .template .. | .paren .. | .typed .. | .array ..
  | .object .. | .call .. | .unary .. | .update .. | .binary .. | .logical .. | .assign ..
  | .conditional .. | .pattern _ | .odd .. => by
      simp only [lowerTarget]
      rfl

theorem lowerPlain_tables (same : declared.tables = declared'.tables) {span : Span}
    {cause : Cause} : ∀ list : List (Option Expr),
    lowerPlain span cause list declared = lowerPlain span cause list declared'
  | [] | none :: _ => by
      simp only [lowerPlain]
      rfl
  | some e :: rest => by
      simp only [lowerPlain, bind_declared, lowerExpr_tables same e, lowerPlain_tables same rest]
      rfl

theorem lowerProperties_tables (same : declared.tables = declared'.tables) {span : Span} :
    ∀ list : List (Option (Property Expr)),
      lowerProperties span list declared = lowerProperties span list declared'
  | [] | none :: _ => by
      simp only [lowerProperties]
      rfl
  | some ⟨place, isAccessor, key, value⟩ :: rest => by
      simp only [lowerProperties, bind_declared, ite_declared, plainKey_read declared declared',
        lowerExpr_tables same value, lowerProperties_tables same rest]
      rfl

end

/-- A part that may be missing is lowered alike. -/
theorem part_tables {α β : Type} {step : α → LowerM β}
    (each : ∀ a, step a declared = step a declared') (part : Option α) :
    part.mapM step declared = part.mapM step declared' := by
  cases part with
  | none => rfl
  | some a =>
    rw [Option.mapM_some, ← bind_pure_comp, bind_declared, bind_declared, each a]
    rfl

/-! ## Statements -/

theorem plainName_read (declared declared' : Declared) (name : Option String) (span : Span) :
    plainName name span declared = plainName name span declared' := by
  cases name <;> rfl

theorem lowerDeclarators_tables (same : declared.tables = declared'.tables) :
    ∀ declarators : List Declarator,
      lowerDeclarators declarators declared = lowerDeclarators declarators declared'
  | [] => rfl
  | declarator :: rest => by
    simp only [lowerDeclarators, bind_declared, plainName_read declared declared', read_declared,
      pure_bind, typeOfExpr_tables same, part_tables (lowerExpr_tables same),
      lowerDeclarators_tables same rest]
    rfl

theorem lowerForLeft_tables (same : declared.tables = declared'.tables) (element : CType)
    (left : ForLeft) :
    lowerForLeft element left declared = lowerForLeft element left declared' := by
  unfold lowerForLeft
  split
  · simp only [bind_declared, plainName_read declared declared']
    rfl
  · rfl
  · rfl
  · simp only [bind_declared, lowerTarget_tables same]
    rfl

theorem lowerForInit_tables (same : declared.tables = declared'.tables) (init : ForInit) :
    lowerForInit init declared = lowerForInit init declared' := by
  cases init with
  | declare declarators =>
    simp only [lowerForInit, bind_declared, lowerDeclarators_tables same]
    rfl
  | evaluate e =>
    simp only [lowerForInit, bind_declared, lowerExpr_tables same]
    rfl

mutual

/-- A statement is lowered alike. -/
theorem lowerStmt_tables (same : declared.tables = declared'.tables) :
    ∀ s : Stmt, lowerStmt s declared = lowerStmt s declared'
  | .declaration _ declarators => by
      simp only [lowerStmt, bind_declared, lowerDeclarators_tables same]
      rfl
  | .expression _ e => by
      simp only [lowerStmt, bind_declared, lowerExpr_tables same]
      rfl
  | .returnStmt .. => by
      simp only [lowerStmt, bind_declared, part_tables (lowerExpr_tables same)]
      rfl
  | .ifThen _ test body | .whileLoop _ test body => by
      simp only [lowerStmt, inScope, bind_declared, lowerExpr_tables same,
        lowerStmt_tables same body]
      rfl
  | .ifElse _ test body otherwise => by
      simp only [lowerStmt, inScope, bind_declared, lowerExpr_tables same,
        lowerStmt_tables same body, lowerStmt_tables same otherwise]
      rfl
  | .doLoop _ body test => by
      simp only [lowerStmt, inScope, bind_declared, lowerExpr_tables same,
        lowerStmt_tables same body]
      rfl
  | .forLoop _ init test update body => by
      simp only [lowerStmt, inScope, bind_declared, part_tables (lowerForInit_tables same),
        part_tables (lowerExpr_tables same), lowerStmt_tables same body]
      rfl
  | .forOf _ awaits left right body => by
      simp only [lowerStmt, inScope, bind_declared, ite_declared, lowerExpr_tables same,
        lowerForLeft_tables same, lowerStmt_tables same body]
      rfl
  | .forIn _ left right body => by
      simp only [lowerStmt, inScope, bind_declared, lowerExpr_tables same,
        lowerForLeft_tables same, lowerStmt_tables same body]
      rfl
  | .switchOn _ discriminant cases => by
      simp only [lowerStmt, inScope, bind_declared, lowerExpr_tables same,
        lowerCases_tables same cases]
      rfl
  | .block _ body => by
      simp only [lowerStmt, inScope, bind_declared, lowerStmts_tables same body]
      rfl
  | .breakStmt _ labeled | .continueStmt _ labeled => by
      simp only [lowerStmt]
      cases labeled <;> rfl
  | .emptyStmt _ | .importFrom .. | .typeOnly _ | .odd .. => by
      simp only [lowerStmt]
      rfl

theorem lowerStmts_tables (same : declared.tables = declared'.tables) :
    ∀ body : List Stmt, lowerStmts body declared = lowerStmts body declared'
  | [] => rfl
  | first :: rest => by
      simp only [lowerStmts]
      split
      · exact lowerStmts_tables same rest
      · simp only [bind_declared, lowerStmt_tables same first, lowerStmts_tables same rest]
        rfl

theorem lowerCases_tables (same : declared.tables = declared'.tables) :
    ∀ cases : List (Case Stmt), lowerCases cases declared = lowerCases cases declared'
  | [] => rfl
  | ⟨_, body⟩ :: rest => by
      simp only [lowerCases, bind_declared, part_tables (lowerExpr_tables same),
        lowerStmts_tables same body, lowerCases_tables same rest]
      rfl

end

/-! ## Scripts -/

theorem lowerParams_tables (same : declared.tables = declared'.tables) :
    ∀ params : List Param, lowerParams params declared = lowerParams params declared'
  | [] => rfl
  | param :: rest => by
    simp only [lowerParams, bind_declared, plainName_read declared declared', read_declared,
      pure_bind, typeOfExpr_tables same, lowerParams_tables same rest]
    rfl

theorem lowerFunction_tables (same : declared.tables = declared'.tables) (f : Function) :
    lowerFunction f declared = lowerFunction f declared' := by
  cases isNamed : f.name with
  | none =>
    simp only [lowerFunction, isNamed]
    rfl
  | some name =>
    cases hasBody : f.body with
    | none =>
      simp only [lowerFunction, isNamed, hasBody]
      rfl
    | some body =>
      simp only [lowerFunction, isNamed, hasBody, inScope, bind_declared, ite_declared,
        read_declared, pure_bind, Declared.returnType?_tables same, lowerParams_tables same,
        lowerStmts_tables same]
      rfl

/-- Items are lowered alike. -/
theorem lowerItems_tables (same : declared.tables = declared'.tables) :
    ∀ items : List Item, lowerItems items declared = lowerItems items declared'
  | [] => rfl
  | .function f :: rest => by
      simp only [lowerItems, bind_declared, lowerFunction_tables same, lowerItems_tables same rest]
      rfl
  | .exportedVariables _ declarators :: rest => by
      simp only [lowerItems, bind_declared, lowerDeclarators_tables same,
        lowerItems_tables same rest]
      rfl
  | .exportedOther _ :: _ => by
      simp only [lowerItems]
      rfl
  | .statement s :: rest => by
      simp only [lowerItems]
      split
      · exact lowerItems_tables same rest
      · simp only [bind_declared, lowerStmt_tables same, lowerItems_tables same rest]
        rfl
  | .interface .. :: rest | .typeAlias .. :: rest => by
      simp only [lowerItems]
      exact lowerItems_tables same rest

end ScriptToC.Lowering
