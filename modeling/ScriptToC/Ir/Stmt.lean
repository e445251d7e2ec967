import ScriptToC.Ir.Expr

/-!
# Statements of the intermediate form

The statements that a C program can be made of, the functions they form, and the module that a
source file becomes. What a condition or a loop governs is a body: the statements of a block, with
the node of the block, or the one statement that stands there (`Stmt.toBody`). The body of a loop
over the elements of an array is kept as one statement, because a block there has a scope of its own
inside the loop's.
-/

set_option autoImplicit false

namespace ScriptToC.Ir

/-- One variable of a declaration. -/
structure Declarator where
  node : Node
  name : String
  init : Option Expr
  deriving Inhabited

/-- What a `for` loop does first. -/
inductive ForInit
  | declare (declarators : List Declarator)
  | evaluate (e : Expr)
  deriving Inhabited

/-- What a loop over a collection assigns to: a new variable or an existing place. -/
inductive ForBinding
  | declare (declarator : Declarator)
  | target (e : Expr)
  deriving Inhabited

/-- One clause of a `switch`; the default clause has no test. -/
structure Clause (σ : Type) where
  test : Option Expr
  body : List σ
  deriving Inhabited

/-- What a condition or a loop governs. A block there is a statement with a node of its own; a
statement that stands there alone is the only one of the row. -/
structure Body (σ : Type) where
  block : Option Node
  statements : List σ
  deriving Inhabited

/-- Statements in a row, without a block around them. -/
instance {σ : Type} : Coe (List σ) (Body σ) :=
  ⟨fun statements => ⟨none, statements⟩⟩

/-- A statement. -/
inductive Stmt
  | breakStmt (node : Node)
  | continueStmt (node : Node)
  | emptyStmt (node : Node)
  | returnStmt (node : Node) (value : Option Expr)
  | ifThen (node : Node) (test : Expr) (body : Body Stmt)
  | ifElse (node : Node) (test : Expr) (body otherwise : Body Stmt)
  | switchOn (node : Node) (discriminant : Expr) (clauses : List (Clause Stmt))
  | whileLoop (node : Node) (test : Expr) (body : Body Stmt)
  | doLoop (node : Node) (body : Body Stmt) (test : Expr)
  | forLoop (node : Node) (init : Option ForInit) (test update : Option Expr) (body : Body Stmt)
  | forOf (node : Node) (left : ForBinding) (right : Expr) (body : Stmt)
  | forIn (node : Node) (left : ForBinding) (right : Expr) (body : Body Stmt)
  | expression (node : Node) (e : Expr)
  | block (node : Node) (body : List Stmt)
  | importFrom (node : Node) (source : String)
  | declaration (node : Node) (declarators : List Declarator)
  deriving Inhabited

namespace Stmt

/-- The node of a statement. -/
def node : Stmt → Node
  | breakStmt node | continueStmt node | emptyStmt node | returnStmt node _ | ifThen node _ _
  | ifElse node _ _ _ | switchOn node _ _ | whileLoop node _ _ | doLoop node _ _
  | forLoop node _ _ _ _ | forOf node _ _ _ | forIn node _ _ _ | expression node _
  | block node _ | importFrom node _ | declaration node _ => node

/-- The statement as what a condition or a loop governs. -/
def toBody : Stmt → Body Stmt
  | block node body => ⟨some node, body⟩
  | other => [other]

/-- The statements that a condition or a loop governs if this statement stands under it. -/
def asBody (s : Stmt) : List Stmt :=
  s.toBody.statements

/-- The kind of a statement in messages. -/
def kindName : Stmt → String
  | breakStmt _ => "break"
  | continueStmt _ => "continue"
  | emptyStmt _ => "empty statement"
  | returnStmt .. => "return"
  | ifThen .. => "if"
  | ifElse .. => "if"
  | switchOn .. => "switch"
  | whileLoop .. => "while"
  | doLoop .. => "do-while"
  | forLoop .. => "for"
  | forOf .. => "for-of"
  | forIn .. => "for-in"
  | expression .. => "expression statement"
  | block .. => "block"
  | importFrom .. => "import"
  | declaration .. => "variable declaration"

mutual

/-- The statement, printed without braces, ends in an `if` that has no `else`, so that an `else`
after it would belong to that `if`. -/
def endsInOpenIf : Stmt → Bool
  | ifThen .. => true
  | ifElse _ _ _ ⟨_, otherwise⟩ => bodyEndsInOpenIf otherwise
  | whileLoop _ _ ⟨_, body⟩ => bodyEndsInOpenIf body
  | forLoop _ _ _ _ ⟨_, body⟩ => bodyEndsInOpenIf body
  | forIn _ _ _ ⟨_, body⟩ => bodyEndsInOpenIf body
  | forOf _ _ _ body => endsInOpenIf body
  | block _ body => bodyEndsInOpenIf body
  | _ => false

/-- The body is a single statement that ends in an open `if`. -/
def bodyEndsInOpenIf : List Stmt → Bool
  | [only] => endsInOpenIf only
  | _ => false

end

end Stmt

/-- A parameter of a function. -/
structure Param where
  id : NodeId
  name : String
  type : CType
  deriving DecidableEq, Repr, Inhabited

/-- A function of the program. -/
structure Function where
  node : Node
  name : String
  params : List Param
  returns : CType
  body : List Stmt
  deriving Inhabited

/-- A source file: its functions, and the statements that run as the main program. -/
structure Module where
  functions : List Function
  topLevel : List Stmt
  deriving Inhabited

end ScriptToC.Ir
