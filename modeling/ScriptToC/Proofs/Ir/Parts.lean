import ScriptToC.Ir.Stmt

/-!
# The parts of a module

The functions of a module, their parameters, and the statements, declared variables and expressions
at every depth each have an identity. `Module.parts` lists them all: a part comes before those
inside it, which follow in the order in which lowering reaches them.
-/

set_option autoImplicit false

namespace ScriptToC.Ir

/-- A part of a module that has an identity. -/
inductive Part
  | function (f : Function)
  | param (param : Param)
  | stmt (s : Stmt)
  | declarator (declarator : Declarator)
  | expr (e : Expr)

namespace Part

/-- The identity of a part. -/
def id : Part → NodeId
  | function f => f.node.id
  | param p => p.id
  | stmt s => s.node.id
  | declarator d => d.node.id
  | expr e => e.id

/-- The name that a part introduces or uses. -/
def name? : Part → Option String
  | function f => some f.name
  | param p => some p.name
  | declarator d => some d.name
  | expr (.ident _ name) => some name
  | _ => none

/-- The part stands for a value, so that it has a type of its own. -/
def isValue : Part → Bool
  | declarator _ | expr _ => true
  | _ => false

end Part

/-! ## Expressions -/

mutual

/-- An expression and every expression in it. -/
def Expr.parts : Expr → List Part
  | .number node text => [.expr (.number node text)]
  | .string node text => [.expr (.string node text)]
  | .bool node value => [.expr (.bool node value)]
  | .null node => [.expr (.null node)]
  | .ident node name => [.expr (.ident node name)]
  | .paren node inner => .expr (.paren node inner) :: inner.parts
  | .array node elements => .expr (.array node elements) :: listParts elements
  | .object node properties => .expr (.object node properties) :: propertyParts properties
  | .member node object property => .expr (.member node object property) :: object.parts
  | .index node object key => .expr (.index node object key) :: (object.parts ++ key.parts)
  | .call node callee args => .expr (.call node callee args) :: (callee.parts ++ listParts args)
  | .unary node op arg => .expr (.unary node op arg) :: arg.parts
  | .update node op before target => .expr (.update node op before target) :: target.parts
  | .binary node op lhs rhs => .expr (.binary node op lhs rhs) :: (lhs.parts ++ rhs.parts)
  | .logical node op lhs rhs => .expr (.logical node op lhs rhs) :: (lhs.parts ++ rhs.parts)
  | .assign node op target value =>
    .expr (.assign node op target value) :: (target.parts ++ value.parts)
  | .conditional node test yes no =>
    .expr (.conditional node test yes no) :: (test.parts ++ yes.parts ++ no.parts)

/-- The expressions of a row and those in them. -/
def listParts : List Expr → List Part
  | [] => []
  | e :: rest => e.parts ++ listParts rest

/-- The values of properties and the expressions in them. -/
def propertyParts : List (String × Expr) → List Part
  | [] => []
  | (_, e) :: rest => e.parts ++ propertyParts rest

end

/-- The parts of an expression that may be missing. -/
def partsOf (part : Option Expr) : List Part :=
  part.elim [] Expr.parts

/-! ## Statements -/

/-- A declared variable and the expressions of its initializer. -/
def Declarator.parts (declarator : Declarator) : List Part :=
  .declarator declarator :: partsOf declarator.init

/-- The parts at the start of a `for` loop. -/
def startParts : Option ForInit → List Part
  | none => []
  | some (.declare declarators) => declarators.flatMap Declarator.parts
  | some (.evaluate e) => e.parts

/-- The parts of what a loop over a collection assigns to. -/
def ForBinding.parts : ForBinding → List Part
  | declare declarator => declarator.parts
  | target e => e.parts

mutual

/-- A statement and every part in it. -/
def Stmt.parts : Stmt → List Part
  | .breakStmt node => [.stmt (.breakStmt node)]
  | .continueStmt node => [.stmt (.continueStmt node)]
  | .emptyStmt node => [.stmt (.emptyStmt node)]
  | .importFrom node path => [.stmt (.importFrom node path)]
  | .returnStmt node value => .stmt (.returnStmt node value) :: partsOf value
  | .ifThen node test body => .stmt (.ifThen node test body) :: (test.parts ++ bodyParts body)
  | .ifElse node test body otherwise =>
    .stmt (.ifElse node test body otherwise) ::
      (test.parts ++ bodyParts body ++ bodyParts otherwise)
  | .switchOn node discriminant clauses =>
    .stmt (.switchOn node discriminant clauses) :: (discriminant.parts ++ clauseParts clauses)
  | .whileLoop node test body =>
    .stmt (.whileLoop node test body) :: (test.parts ++ bodyParts body)
  | .doLoop node body test => .stmt (.doLoop node body test) :: (bodyParts body ++ test.parts)
  | .forLoop node init test update body =>
    .stmt (.forLoop node init test update body) ::
      (startParts init ++ partsOf test ++ partsOf update ++ bodyParts body)
  | .forOf node left right body =>
    .stmt (.forOf node left right body) :: (right.parts ++ left.parts ++ body.parts)
  | .forIn node left right body =>
    .stmt (.forIn node left right body) :: (right.parts ++ left.parts ++ bodyParts body)
  | .expression node e => .stmt (.expression node e) :: e.parts
  | .block node body => .stmt (.block node body) :: rowParts body
  | .declaration node declarators =>
    .stmt (.declaration node declarators) :: declarators.flatMap Declarator.parts

/-- The parts of statements in a row. -/
def rowParts : List Stmt → List Part
  | [] => []
  | first :: rest => first.parts ++ rowParts rest

/-- The parts of what a condition or a loop governs. A block there is one of them. -/
def bodyParts : Body Stmt → List Part
  | ⟨none, statements⟩ => rowParts statements
  | ⟨some node, statements⟩ => .stmt (.block node statements) :: rowParts statements

/-- The parts of the clauses of a `switch`. -/
def clauseParts : List (Clause Stmt) → List Part
  | [] => []
  | ⟨test, body⟩ :: rest => partsOf test ++ rowParts body ++ clauseParts rest

end

/-- What a condition or a loop governs has the parts of the statement that stood there. -/
@[simp] theorem bodyParts_toBody (s : Stmt) : bodyParts s.toBody = s.parts := by
  cases s with
  | block node body => rfl
  | _ => exact List.append_nil _

section Bodies

variable {braces : Option Node} {body : List Stmt}

/-- Where a body stands, its statements stand. -/
theorem rowParts_subset {parts : List Part} (inside : bodyParts ⟨braces, body⟩ ⊆ parts) :
    rowParts body ⊆ parts := by
  cases braces with
  | none => exact inside
  | some node => exact (List.cons_subset.1 inside).2

/-- The expressions in a body are those in its statements. -/
theorem expr_mem_bodyParts {e : Expr} :
    .expr e ∈ bodyParts ⟨braces, body⟩ ↔ .expr e ∈ rowParts body := by
  cases braces <;> simp [bodyParts]

end Bodies

/-! ## Modules -/

/-- A function, its parameters and every part of its body. -/
def Function.parts (f : Function) : List Part :=
  .function f :: (f.params.map .param ++ rowParts f.body)

/-- Every part of a module. -/
def Module.parts (module : Module) : List Part :=
  module.functions.flatMap Function.parts ++ rowParts module.topLevel

/-- The first statement of the main program comes after the functions. -/
theorem parts_topLevel_cons (module : Module) (s : Stmt) :
    List.Perm { module with topLevel := s :: module.topLevel }.parts (s.parts ++ module.parts) := by
  rw [Module.parts, Module.parts, rowParts]
  exact List.perm_append_comm_assoc _ _ _

theorem Expr.expr_mem_parts (e : Expr) : .expr e ∈ e.parts := by
  cases e <;> simp only [parts, List.mem_cons, true_or]

end ScriptToC.Ir
