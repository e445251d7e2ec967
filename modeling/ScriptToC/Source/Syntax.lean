import ScriptToC.Decimal
import ScriptToC.Ir.Basic
import ScriptToC.Source.Type

/-!
# Source programs

The syntax tree of a script as a front end delivers it. Every part that a message can point at
carries its bytes in the source. Constructs that have no C form are kept by their kind only, so that
a message can name them.
-/

set_option autoImplicit false

namespace ScriptToC.Source

/-- An expression that is known to have no C form. -/
inductive OddExpr
  | function
  | optionalChain
  | construction
  | other
  deriving DecidableEq, Repr, Inhabited

/-- A chunk of a template literal: its spelling, and the text that the spelling stands for, unless
it stands for none. -/
structure Chunk where
  raw : String
  cooked : Option String
  deriving DecidableEq, Repr, Inhabited

/-- A property of an object literal, over expressions. -/
structure Property (ε : Type) where
  span : Span
  /-- The property is a method, or is read or written by a function. -/
  isAccessor : Bool
  key : PropertyKey
  value : ε
  deriving Inhabited

/-- An expression. -/
inductive Expr
  /-- A number with its value, unless that is infinite, and its spelling. -/
  | number (span : Span) (value : Option Decimal) (raw : String)
  | string (span : Span) (value : String)
  | bool (span : Span) (value : Bool)
  | null (span : Span)
  /-- A template literal: its chunks, and whether values stand between them. -/
  | template (span : Span) (chunks : List Chunk) (interpolated : Bool)
  | ident (span : Span) (name : String)
  | paren (span : Span) (inner : Expr)
  /-- An expression with a type written at it. -/
  | typed (span : Span) (inner : Expr)
  /-- An array literal; an element that is spread or left out is `none`. -/
  | array (span : Span) (elements : List (Option Expr))
  /-- An object literal; a spread is `none`. -/
  | object (span : Span) (properties : List (Option (Property Expr)))
  | member (span : Span) (object : Expr) (property : String)
  | index (span : Span) (object key : Expr)
  /-- A call; an argument that is spread is `none`. -/
  | call (span : Span) (callee : Expr) (args : List (Option Expr))
  | unary (span : Span) (op : String) (arg : Expr)
  | update (span : Span) (op : String) (before : Bool) (target : Expr)
  | binary (span : Span) (op : String) (lhs rhs : Expr)
  | logical (span : Span) (op : String) (lhs rhs : Expr)
  | assign (span : Span) (op : String) (target value : Expr)
  | conditional (span : Span) (test yes no : Expr)
  /-- A pattern that takes a value apart, in the place of a target. -/
  | pattern (span : Span)
  | odd (span : Span) (kind : OddExpr)
  deriving Inhabited

/-- The bytes of an expression. -/
def Expr.span : Expr → Span
  | number span _ _ | string span _ | bool span _ | null span | template span _ _ | ident span _
  | paren span _ | typed span _ | array span _ | object span _ | member span _ _ | index span _ _
  | call span _ _ | unary span _ _ | update span _ _ _ | binary span _ _ _ | logical span _ _ _
  | assign span _ _ _ | conditional span _ _ _ | pattern span | odd span _ => span

/-- One variable of a declaration; its name is missing if a pattern takes the value apart. -/
structure Declarator where
  span : Span
  name : Option String
  annotation : Option TypeExpr
  init : Option Expr
  deriving Inhabited

/-- What a `for` loop does first. -/
inductive ForInit
  | declare (declarators : List Declarator)
  | evaluate (e : Expr)
  deriving Inhabited

/-- What a loop over a collection assigns to. -/
inductive ForLeft
  | declare (span : Span) (declarators : List Declarator)
  | target (e : Expr)
  deriving Inhabited

/-- A clause of a `switch`, over statements. -/
structure Case (σ : Type) where
  test : Option Expr
  body : List σ
  deriving Inhabited

/-- A statement that is known to have no C form. -/
inductive OddStmt
  | tryCatch
  | throw
  | labeled
  | withScope
  | debugger
  | classDeclaration
  | nestedFunction
  | enumDeclaration
  | export
  | other
  deriving DecidableEq, Repr, Inhabited

/-- A statement. -/
inductive Stmt
  | declaration (span : Span) (declarators : List Declarator)
  | expression (span : Span) (e : Expr)
  | returnStmt (span : Span) (value : Option Expr)
  | ifThen (span : Span) (test : Expr) (body : Stmt)
  | ifElse (span : Span) (test : Expr) (body otherwise : Stmt)
  | whileLoop (span : Span) (test : Expr) (body : Stmt)
  | doLoop (span : Span) (body : Stmt) (test : Expr)
  | forLoop (span : Span) (init : Option ForInit) (test update : Option Expr) (body : Stmt)
  | forOf (span : Span) (awaits : Bool) (left : ForLeft) (right : Expr) (body : Stmt)
  | forIn (span : Span) (left : ForLeft) (right : Expr) (body : Stmt)
  | switchOn (span : Span) (discriminant : Expr) (cases : List (Case Stmt))
  | breakStmt (span : Span) (labeled : Bool)
  | continueStmt (span : Span) (labeled : Bool)
  | emptyStmt (span : Span)
  | block (span : Span) (body : List Stmt)
  /-- An import: the names it binds, and where they come from. -/
  | importFrom (span : Span) (names : List String) (source : String)
  /-- An interface or a type alias, which matters to types only. -/
  | typeOnly (span : Span)
  | odd (span : Span) (kind : OddStmt)
  deriving Inhabited

/-- The statement matters to types only. -/
def Stmt.isTypeOnly : Stmt → Bool
  | typeOnly _ => true
  | _ => false

/-- A parameter; its name is missing if a pattern takes the value apart. -/
structure Param where
  span : Span
  name : Option String
  annotation : Option TypeExpr
  deriving Inhabited

/-- A function declaration. One without a body declares a signature. -/
structure Function where
  span : Span
  name : Option String
  params : List Param
  hasRest : Bool
  /-- The function is asynchronous or a generator. -/
  isSpecial : Bool
  returns : Option TypeExpr
  body : Option (List Stmt)
  deriving Inhabited

/-- What stands at the top level of a script. Exporting makes a difference only to variables, whose
statement then begins at the export. -/
inductive Item
  | function (f : Function)
  | interface (name : String) (members : List (Member TypeExpr))
  | typeAlias (name : String) (type : TypeExpr)
  | exportedVariables (span : Span) (declarators : List Declarator)
  | exportedOther (span : Span)
  | statement (s : Stmt)
  deriving Inhabited

/-- A script. -/
abbrev Program := List Item

/-- What a front end says about a source text. -/
inductive Report
  /-- The text cannot be parsed, for these reasons. -/
  | syntaxErrors (messages : List String)
  /-- The text can be parsed and breaks rules of the language. -/
  | semanticErrors (messages : List String)
  | program (program : Program)
  deriving Inhabited

end ScriptToC.Source
