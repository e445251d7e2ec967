import ScriptToC.Lowering.Operator
import ScriptToC.Lowering.State

/-!
# Lowering expressions

An expression of a script becomes an expression of the intermediate form whose nodes have recorded
types. The type of an expression follows from its shape and the types of its parts (`inferType`);
types written at an expression are dropped.

A template literal keeps the spelling of its chunks, so an escape in it stays as it was written. A
call of `push` or `pop` on a variable makes the array in it one that grows.
-/

set_option autoImplicit false

namespace ScriptToC.Lowering

open Source

/-! ## Types of expressions -/

/-- The type of an expression, from the types of its parts. -/
def inferType (declared : Declared) (typeOf : NodeId → CType) : Ir.Expr → CType
  | .number .. => .number
  | .update .. => .number
  | .string .. => .string
  | .bool .. => .boolean
  | .logical .. => .boolean
  | .null _ => .unknown
  | .ident .. => .unknown
  | .paren _ inner => typeOf inner.id
  | .array _ elements =>
    .fixedArray ((elements.head?.map fun e => typeOf e.id).getD .number) elements.length
  | .object _ properties => .dict ((properties.head?.map fun p => typeOf p.2.id).getD .number)
  | .member _ object property =>
    match typeOf object.id with
    | .array .. => if property = "length" then .number else .unknown
    | .string => if property = "length" then .number else .unknown
    | .dict element => element
    | .struct name => declared.fieldType name property
    | _ => .unknown
  | .index _ object key =>
    match typeOf object.id with
    | .array element _ _ => element
    | .dict element => element
    | .struct name =>
      match key with
      | .string _ field => declared.fieldType name field
      | _ => .unknown
    | _ => .unknown
  | .call _ (.ident _ name) _ => (declared.returnType? name).getD .unknown
  | .call _ (.member _ object property) _ =>
    if object.ident? = some "console" then
      .void
    else
      match typeOf object.id with
      | .array element _ _ =>
        if property = "push" then .number
        else if property = "pop" then element
        else .unknown
      | _ => .unknown
  | .call .. => .unknown
  | .unary _ .not _ => .boolean
  | .unary .. => .number
  | .binary _ op lhs rhs =>
    if op.isComparison then .boolean
    else if op = .add ∧ ((typeOf lhs.id).isString ∨ (typeOf rhs.id).isString) then .string
    else .number
  | .assign _ _ _ value => typeOf value.id
  | .conditional _ _ yes _ => typeOf yes.id

/-- Gives an expression a node and records its type. -/
def typed (span : Span) (build : Node → Ir.Expr) : LowerM Ir.Expr := do
  let node ← freshNode span
  let e := build node
  let declared ← read
  modify fun state => state.record node.id (inferType declared state.typeOf e)
  return e

/-! ## Parts of expressions -/

/-- A use of a name. -/
def nameUse (span : Span) (name : String) : LowerM Ir.Expr := do
  let node ← freshNode span
  modify fun state => state.use name node.id
  return .ident node name

/-- An operator, by its spelling. -/
def operator {α : Type} (span : Span) (spelling : String) (op : Option α) : LowerM α :=
  match op with
  | some op => return op
  | none => reject span (.operator spelling)

/-- A property's key, which must be a name. -/
def plainKey (span : Span) : PropertyKey → LowerM String
  | .name text => return text
  | .computed => reject span .computedKey

/-- If the expression called is a growing method of a variable, the array in the variable grows. -/
def noteGrowth : Ir.Expr → LowerM Unit
  | .member _ object property =>
    if property = "push" ∨ property = "pop" then
      modify fun state =>
        match state.bindingOf? object.id with
        | some binding => state.grow binding
        | none => state
    else
      return ()
  | _ => return ()

/-! ## Lowering -/

mutual

/-- Lowers an expression. -/
def lowerExpr : Expr → LowerM Ir.Expr
  | .number span value raw => typed span fun node => .number node (numberText value raw)
  | .string span value => typed span fun node => .string node value
  | .bool span value => typed span fun node => .bool node value
  | .null span => typed span .null
  | .template span chunks interpolated =>
    if interpolated then
      reject span .interpolation
    else
      typed span fun node => .string node (String.join (chunks.map (·.raw)))
  | .ident span name => if name = "undefined" then typed span .null else nameUse span name
  | .paren span inner => do
    let inner ← lowerExpr inner
    let node ← freshNode span
    modify fun state => state.shareType node.id inner.id
    return .paren node inner
  | .typed _ inner => lowerExpr inner
  | .array span elements => do
    let elements ← lowerPlain span .arraySpread elements
    typed span fun node => .array node elements
  | .object span properties => do
    let properties ← lowerProperties span properties
    typed span fun node => .object node properties
  | .member span object property => do
    let object ← lowerExpr object
    typed span fun node => .member node object property
  | .index span object key => do
    let object ← lowerExpr object
    let key ← lowerExpr key
    typed span fun node => .index node object key
  | .call span callee args => do
    let callee ← lowerExpr callee
    let args ← lowerPlain span .argumentSpread args
    noteGrowth callee
    typed span fun node => .call node callee args
  | .unary span op arg => do
    let op ← operator span op (unaryOp? op)
    let arg ← lowerExpr arg
    typed span fun node => .unary node op arg
  | .update span op before target => do
    let target ← lowerTarget target
    let op := if op = "++" then .increment else .decrement
    typed span fun node => .update node op before target
  | .binary span op lhs rhs => do
    let op ← operator span op (binaryOp? op)
    let lhs ← lowerExpr lhs
    let rhs ← lowerExpr rhs
    typed span fun node => .binary node op lhs rhs
  | .logical span op lhs rhs => do
    let op ← operator span op (logicalOp? op)
    let lhs ← lowerExpr lhs
    let rhs ← lowerExpr rhs
    typed span fun node => .logical node op lhs rhs
  | .assign span op target value => do
    let op ← operator span op (assignOp? op)
    match target with
    | .pattern _ => reject span .destructuringAssignment
    | target => do
      let target ← lowerTarget target
      let value ← lowerExpr value
      typed span fun node => .assign node op target value
  | .conditional span test yes no => do
    let test ← lowerExpr test
    let yes ← lowerExpr yes
    let no ← lowerExpr no
    typed span fun node => .conditional node test yes no
  | .pattern span => reject span (.expression .other)
  | .odd span kind => reject span (.expression kind)

/-- Lowers an expression that is assigned to. -/
def lowerTarget : Expr → LowerM Ir.Expr
  | .ident span name => nameUse span name
  | .member span object property => do
    let object ← lowerExpr object
    typed span fun node => .member node object property
  | .index span object key => do
    let object ← lowerExpr object
    let key ← lowerExpr key
    typed span fun node => .index node object key
  | other => reject other.span .target

/-- Lowers expressions in a row. One that is missing rejects the whole. -/
def lowerPlain (span : Span) (cause : Cause) : List (Option Expr) → LowerM (List Ir.Expr)
  | [] => return []
  | none :: _ => reject span cause
  | some e :: rest => do
    let first ← lowerExpr e
    return first :: (← lowerPlain span cause rest)

/-- Lowers the properties of an object literal. -/
def lowerProperties (span : Span) :
    List (Option (Property Expr)) → LowerM (List (String × Ir.Expr))
  | [] => return []
  | none :: _ => reject span .objectSpread
  | some ⟨place, isAccessor, key, value⟩ :: rest => do
    if isAccessor then
      reject place .accessor
    let name ← plainKey place key
    let value ← lowerExpr value
    return (name, value) :: (← lowerProperties span rest)

end

end ScriptToC.Lowering
