import ScriptToC.Ir.Basic

/-!
# Expressions of the intermediate form

Expressions with the source's own operators and grouping. An assignment with an operator keeps that
operator, and parentheses are kept as the author wrote them.
-/

set_option autoImplicit false

namespace ScriptToC.Ir

/-- An operator before its operand. -/
inductive UnaryOp
  | neg
  | plus
  | not
  | bitNot
  deriving DecidableEq, Repr, Inhabited

/-- An operator that changes a place. -/
inductive UpdateOp
  | increment
  | decrement
  deriving DecidableEq, Repr, Inhabited

/-- An operator between two values, both of which are evaluated. -/
inductive BinaryOp
  | add
  | sub
  | mul
  | div
  | rem
  | lt
  | le
  | gt
  | ge
  | eq
  | ne
  | bitAnd
  | bitOr
  | bitXor
  | shl
  | shr
  deriving DecidableEq, Repr, Inhabited

/-- An operator between two conditions, the second of which may stay unevaluated. -/
inductive LogicalOp
  | and
  | or
  deriving DecidableEq, Repr, Inhabited

/-- The C spelling of an operator. -/
def BinaryOp.spelling : BinaryOp → String
  | add => "+"
  | sub => "-"
  | mul => "*"
  | div => "/"
  | rem => "%"
  | lt => "<"
  | le => "<="
  | gt => ">"
  | ge => ">="
  | eq => "=="
  | ne => "!="
  | bitAnd => "&"
  | bitOr => "|"
  | bitXor => "^"
  | shl => "<<"
  | shr => ">>"

/-- The operators whose result is a truth value. -/
def BinaryOp.isComparison : BinaryOp → Bool
  | lt | le | gt | ge | eq | ne => true
  | _ => false

/-- The C spelling of an update. -/
def UpdateOp.spelling : UpdateOp → String
  | increment => "++"
  | decrement => "--"

/-- The C spelling of a logical operator. -/
def LogicalOp.spelling : LogicalOp → String
  | and => "&&"
  | or => "||"

/-- An expression. -/
inductive Expr
  /-- A number, as the text that C reads. -/
  | number (node : Node) (text : String)
  | string (node : Node) (text : String)
  | bool (node : Node) (value : Bool)
  | null (node : Node)
  | ident (node : Node) (name : String)
  | paren (node : Node) (inner : Expr)
  | array (node : Node) (elements : List Expr)
  | object (node : Node) (properties : List (String × Expr))
  | member (node : Node) (object : Expr) (property : String)
  | index (node : Node) (object key : Expr)
  | call (node : Node) (callee : Expr) (args : List Expr)
  | unary (node : Node) (op : UnaryOp) (arg : Expr)
  /-- An increment or decrement, written before its target or after it. -/
  | update (node : Node) (op : UpdateOp) (before : Bool) (target : Expr)
  | binary (node : Node) (op : BinaryOp) (lhs rhs : Expr)
  | logical (node : Node) (op : LogicalOp) (lhs rhs : Expr)
  /-- An assignment, with an operator if it is a compound one. -/
  | assign (node : Node) (op : Option BinaryOp) (target value : Expr)
  | conditional (node : Node) (test yes no : Expr)
  deriving Inhabited

namespace Expr

/-- The node of an expression. -/
def node : Expr → Node
  | number node _ | string node _ | bool node _ | null node | ident node _ | paren node _
  | array node _ | object node _ | member node _ _ | index node _ _ | call node _ _
  | unary node _ _ | update node _ _ _ | binary node _ _ _ | logical node _ _ _
  | assign node _ _ _ | conditional node _ _ _ => node

/-- The identity of an expression. -/
def id (e : Expr) : NodeId :=
  e.node.id

/-- The bytes of an expression in the source. -/
def span (e : Expr) : Span :=
  e.node.span

/-- The name, if the expression is an identifier, in parentheses or not. -/
def ident? : Expr → Option String
  | ident _ name => some name
  | paren _ inner => inner.ident?
  | _ => none

end Expr

end ScriptToC.Ir
