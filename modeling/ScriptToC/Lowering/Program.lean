import ScriptToC.Lowering.Stmt

/-!
# Lowering programs

The functions of a script become functions, and the statements at its top level the main program. A
function sees its parameters and nothing of the main program.
-/

set_option autoImplicit false

namespace ScriptToC.Lowering

open Source

/-- The parameters of a function. One without an annotation is a number. -/
def lowerParams : List Param → LowerM (List Ir.Param)
  | [] => return []
  | param :: rest => do
    let name ← plainName param.name param.span
    let aliases := (← read).aliases
    let type := (param.annotation.map (typeOfExpr aliases)).getD .number
    let id ← freshId
    modify fun state => state.declare name type id
    return ⟨id, name, type⟩ :: (← lowerParams rest)

/-- A function. A declaration without a body gives none. -/
def lowerFunction (f : Function) : LowerM (Option Ir.Function) := do
  let some name := f.name | reject f.span .anonymousFunction
  modify fun state => state.mention name
  let some body := f.body | return none
  if f.isSpecial then
    reject f.span .specialFunction
  if f.hasRest then
    reject f.span .restParameters
  let (params, body) ← inScope do
    modify fun state => { state with visible := [] }
    let params ← lowerParams f.params
    return (params, ← lowerStmts body)
  let returns := ((← read).returnType? name).getD .void
  return some ⟨← freshNode f.span, name, params, returns, body⟩

/-- The module of some items, in the order of the source. -/
def lowerItems : List Item → LowerM Ir.Module
  | [] => return ⟨[], []⟩
  | item :: rest =>
    let statement (step : LowerM Ir.Stmt) : LowerM Ir.Module := do
      let first ← step
      let others ← lowerItems rest
      return { others with topLevel := first :: others.topLevel }
    match item with
    | .function f => do
      let first ← lowerFunction f
      let others ← lowerItems rest
      return { others with functions := first.toList ++ others.functions }
    | .exportedVariables span declarators => statement do
      let declarators ← lowerDeclarators declarators
      placed span fun node => .declaration node declarators
    | .exportedOther span => reject span .exported
    | .statement s => if s.isTypeOnly then lowerItems rest else statement (lowerStmt s)
    | .interface .. => lowerItems rest
    | .typeAlias .. => lowerItems rest

/-- What lowering a script gives: the module, the types of its nodes and the names that the script
mentions. -/
structure Lowered where
  module : Ir.Module
  types : TypeTable
  mentioned : List String

/-- Lowers a script. -/
def lowerProgram (program : Program) : Except Rejection Lowered := do
  let (module, state) ← (lowerItems program (Declared.ofProgram program)).run {}
  return ⟨module, state.resolved, state.mentioned⟩

end ScriptToC.Lowering
