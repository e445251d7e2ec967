import ScriptToC.Ir.Stmt
import ScriptToC.Lowering.Expr

/-!
# Lowering statements

A statement of a script becomes a statement of the intermediate form. Blocks, branches, loops and
`switch` statements have a lexical scope of their own: what they declare is not visible after them.
Interfaces and type aliases are passed over.
-/

set_option autoImplicit false

namespace ScriptToC.Lowering

open Source

/-- The variables of a declaration, each visible in those after it. The type of a variable is its
annotation, if that has a meaning, and else the type of its initializer. -/
def lowerDeclarators : List Declarator → LowerM (List Ir.Declarator)
  | [] => return []
  | declarator :: rest => do
    let name ← plainName declarator.name declarator.span
    let init ← declarator.init.mapM lowerExpr
    let aliases := (← read).aliases
    let annotated := (declarator.annotation.map (typeOfExpr aliases)).filter (· ≠ .unknown)
    let state ← get
    let type := annotated.getD (init.elim .unknown fun e => state.typeOf e.id)
    let node ← freshNode declarator.span
    modify fun state => state.declare name type node.id
    return ⟨node, name, init⟩ :: (← lowerDeclarators rest)

/-- What a loop over a collection assigns to. A variable that is declared there takes the type of
the elements. -/
def lowerForLeft (element : CType) : ForLeft → LowerM Ir.ForBinding
  | .declare span [declarator] => do
    let name ← plainName declarator.name span
    let node ← freshNode declarator.span
    modify fun state => state.declare name element node.id
    return .declare ⟨node, name, none⟩
  | .declare span _ => reject span .severalLoopVariables
  | .target (.pattern span) => reject span .destructuringLoop
  | .target e => return .target (← lowerTarget e)

/-- What a `for` loop does first. -/
def lowerForInit : ForInit → LowerM Ir.ForInit
  | .declare declarators => return .declare (← lowerDeclarators declarators)
  | .evaluate e => return .evaluate (← lowerExpr e)

/-- The element type of a collection that is run through. -/
def elementType : CType → CType
  | .array element _ _ => element
  | _ => .unknown

/-- Gives a statement a node. -/
def placed (span : Span) (build : Node → Ir.Stmt) : LowerM Ir.Stmt :=
  return build (← freshNode span)

mutual

/-- Lowers a statement. -/
def lowerStmt : Stmt → LowerM Ir.Stmt
  | .declaration span declarators => do
    let declarators ← lowerDeclarators declarators
    placed span fun node => .declaration node declarators
  | .expression span e => do
    let e ← lowerExpr e
    placed span fun node => .expression node e
  | .returnStmt span value => do
    let value ← value.mapM lowerExpr
    placed span fun node => .returnStmt node value
  | .ifThen span test body => do
    let test ← lowerExpr test
    let body ← inScope (lowerStmt body)
    placed span fun node => .ifThen node test body.toBody
  | .ifElse span test body otherwise => do
    let test ← lowerExpr test
    let body ← inScope (lowerStmt body)
    let otherwise ← inScope (lowerStmt otherwise)
    placed span fun node => .ifElse node test body.toBody otherwise.toBody
  | .whileLoop span test body => do
    let test ← lowerExpr test
    let body ← inScope (lowerStmt body)
    placed span fun node => .whileLoop node test body.toBody
  | .doLoop span body test => do
    let body ← inScope (lowerStmt body)
    let test ← lowerExpr test
    placed span fun node => .doLoop node body.toBody test
  | .forLoop span init test update body => do
    let (init, test, update, body) ← inScope do
      let init ← init.mapM lowerForInit
      let test ← test.mapM lowerExpr
      let update ← update.mapM lowerExpr
      let body ← inScope (lowerStmt body)
      return (init, test, update, body)
    placed span fun node => .forLoop node init test update body.toBody
  | .forOf span awaits left right body => do
    if awaits then
      reject span .asynchronousLoop
    let (left, right, body) ← inScope do
      let right ← lowerExpr right
      let element := elementType ((← get).typeOf right.id)
      let left ← lowerForLeft element left
      let body ← inScope (lowerStmt body)
      return (left, right, body)
    placed span fun node => .forOf node left right body
  | .forIn span left right body => do
    let (left, right, body) ← inScope do
      let right ← lowerExpr right
      let left ← lowerForLeft .string left
      let body ← inScope (lowerStmt body)
      return (left, right, body)
    placed span fun node => .forIn node left right body.toBody
  | .switchOn span discriminant cases => do
    let discriminant ← lowerExpr discriminant
    let clauses ← inScope (lowerCases cases)
    placed span fun node => .switchOn node discriminant clauses
  | .breakStmt span labeled =>
    if labeled then reject span .labeledBreak else placed span .breakStmt
  | .continueStmt span labeled =>
    if labeled then reject span .labeledContinue else placed span .continueStmt
  | .emptyStmt span => placed span .emptyStmt
  | .block span body => do
    let body ← inScope (lowerStmts body)
    placed span fun node => .block node body
  | .importFrom span names source => do
    modify fun state => names.foldl State.mention state
    placed span fun node => .importFrom node source
  | .typeOnly span => reject span (.statement .other)
  | .odd span kind => reject span (.statement kind)

/-- Lowers statements in a row. -/
def lowerStmts : List Stmt → LowerM (List Ir.Stmt)
  | [] => return []
  | first :: rest =>
    if first.isTypeOnly then
      lowerStmts rest
    else do
      let first ← lowerStmt first
      return first :: (← lowerStmts rest)

/-- Lowers the clauses of a `switch`, which share one scope. -/
def lowerCases : List (Case Stmt) → LowerM (List (Ir.Clause Ir.Stmt))
  | [] => return []
  | ⟨test, body⟩ :: rest => do
    let test ← test.mapM lowerExpr
    let body ← lowerStmts body
    return ⟨test, body⟩ :: (← lowerCases rest)

end

end ScriptToC.Lowering
