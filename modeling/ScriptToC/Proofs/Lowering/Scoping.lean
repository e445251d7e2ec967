import ScriptToC.Source.Syntax

/-!
# Lexical scopes

What the names in a script stand for, read off its syntax. An environment maps names to variables
and is only ever passed down: a declaration is seen by what follows it in its row of statements, in
its list of variables, or in the head and the body of its loop. Every block, branch and loop, every
`switch` as a whole, and every function has an environment of its own, and nothing of it is left
after it. A function begins with its parameters alone.

Variables are known by their numbers, in the order in which they are declared. So the definitions
take the first number that is free (`start`), and `freeAfter` says which one is free afterwards.

A name is listed with what it stands for where it is used and where it is declared (`Tie`): first
a variable that is declared, then the uses in its initializer; and of a statement, its parts from
left to right, except that a loop over a collection has the collection first.
-/

set_option autoImplicit false

namespace ScriptToC.Source

/-- What names stand for: the numbers of variables, the innermost first. -/
abbrev Env := List (String × Nat)

/-- A name at a place where it is used or declared, and the variable that it stands for there. -/
abbrev Tie := String × Option Nat

/-! ## Expressions -/

mutual

/-- The uses of names in an expression. What is spelled `undefined` is no name, unless something is
assigned to it. -/
def Expr.ties (env : Env) : Expr → List Tie
  | .number .. | .string .. | .bool .. | .null _ | .template .. | .pattern _ | .odd .. => []
  | .ident _ name => if name = "undefined" then [] else [(name, env.lookup name)]
  | .paren _ inner | .typed _ inner => inner.ties env
  | .array _ elements => plainTies env elements
  | .object _ properties => propertyTies env properties
  | .member _ object _ => object.ties env
  | .index _ object key => object.ties env ++ key.ties env
  | .call _ callee args => callee.ties env ++ plainTies env args
  | .unary _ _ arg => arg.ties env
  | .update _ _ _ target => target.targetTies env
  | .binary _ _ lhs rhs | .logical _ _ lhs rhs => lhs.ties env ++ rhs.ties env
  | .assign _ _ target value => target.targetTies env ++ value.ties env
  | .conditional _ test yes no => test.ties env ++ yes.ties env ++ no.ties env

/-- The uses of names in what is assigned to. -/
def Expr.targetTies (env : Env) : Expr → List Tie
  | .ident _ name => [(name, env.lookup name)]
  | .member _ object _ => object.ties env
  | .index _ object key => object.ties env ++ key.ties env
  | _ => []

/-- The uses of names in expressions in a row. -/
def plainTies (env : Env) : List (Option Expr) → List Tie
  | [] => []
  | none :: rest => plainTies env rest
  | some e :: rest => e.ties env ++ plainTies env rest

/-- The uses of names in the values of properties. -/
def propertyTies (env : Env) : List (Option (Property Expr)) → List Tie
  | [] => []
  | none :: rest => propertyTies env rest
  | some ⟨_, _, _, value⟩ :: rest => value.ties env ++ propertyTies env rest

end

/-- The uses of names in an expression that may be missing. -/
def partTies (env : Env) (part : Option Expr) : List Tie :=
  part.elim [] (Expr.ties env)

/-! ## Declarations -/

/-- A variable where it is declared, unless a pattern stands there. -/
def nameTies (number : Nat) (name : Option String) : List Tie :=
  (name.map fun name => (name, some number)).toList

/-- The environment after the declaration of a variable. -/
def bindName (env : Env) (number : Nat) (name : Option String) : Env :=
  (name.map fun name => (name, number)).toList ++ env

/-- The environment after the declaration of several variables. -/
def bindNames (env : Env) (start : Nat) : List (Option String) → Env
  | [] => env
  | name :: rest => bindNames (bindName env start name) (start + 1) rest

/-- Several variables where they are declared. -/
def namesTies (start : Nat) : List (Option String) → List Tie
  | [] => []
  | name :: rest => nameTies start name ++ namesTies (start + 1) rest

/-- The variables of a declaration with the uses in their initializers. The initializer of a
variable does not see the variable itself, and those after it do. -/
def declaratorTies (env : Env) (start : Nat) : List Declarator → List Tie
  | [] => []
  | declarator :: rest =>
    nameTies start declarator.name ++ partTies env declarator.init ++
      declaratorTies (bindName env start declarator.name) (start + 1) rest

/-- The environment after a declaration. -/
def declaratorEnv (env : Env) (start : Nat) (declarators : List Declarator) : Env :=
  bindNames env start (declarators.map (·.name))

namespace ForLeft

/-- What a loop over a collection assigns to: a variable that is declared, or a target. -/
def ties (env : Env) (start : Nat) : ForLeft → List Tie
  | declare _ [declarator] => nameTies start declarator.name
  | declare .. => []
  | target e => e.targetTies env

/-- The environment of the loop's body. -/
def extend (env : Env) (start : Nat) : ForLeft → Env
  | declare _ [declarator] => bindName env start declarator.name
  | _ => env

def freeAfter (start : Nat) : ForLeft → Nat
  | declare _ [_] => start + 1
  | _ => start

end ForLeft

/-- The start of a `for` loop, if there is one. -/
def startTies (env : Env) (start : Nat) : Option ForInit → List Tie
  | none => []
  | some (.declare declarators) => declaratorTies env start declarators
  | some (.evaluate e) => e.ties env

/-- The environment of the rest of a `for` loop. -/
def startEnv (env : Env) (start : Nat) : Option ForInit → Env
  | some (.declare declarators) => declaratorEnv env start declarators
  | _ => env

def startFreeAfter (start : Nat) : Option ForInit → Nat
  | some (.declare declarators) => start + declarators.length
  | _ => start

/-! ## Statements -/

mutual

/-- The first number that is free after a statement. -/
def Stmt.freeAfter (start : Nat) : Stmt → Nat
  | .declaration _ declarators => start + declarators.length
  | .ifThen _ _ body | .whileLoop _ _ body | .doLoop _ body _ => body.freeAfter start
  | .ifElse _ _ body otherwise => otherwise.freeAfter (body.freeAfter start)
  | .forLoop _ init _ _ body => body.freeAfter (startFreeAfter start init)
  | .forOf _ _ left _ body | .forIn _ left _ body => body.freeAfter (left.freeAfter start)
  | .switchOn _ _ cases => casesFreeAfter start cases
  | .block _ body => rowFreeAfter start body
  | .expression .. | .returnStmt .. | .breakStmt .. | .continueStmt .. | .emptyStmt _
  | .importFrom .. | .typeOnly _ | .odd .. => start

def rowFreeAfter (start : Nat) : List Stmt → Nat
  | [] => start
  | first :: rest => rowFreeAfter (first.freeAfter start) rest

def casesFreeAfter (start : Nat) : List (Case Stmt) → Nat
  | [] => start
  | ⟨_, body⟩ :: rest => casesFreeAfter (rowFreeAfter start body) rest

end

/-- The environment of what follows a statement in its row: a declaration alone extends it. -/
def Stmt.extend (env : Env) (start : Nat) : Stmt → Env
  | .declaration _ declarators => declaratorEnv env start declarators
  | _ => env

/-- The environment after statements in a row. -/
def rowEnv (env : Env) (start : Nat) : List Stmt → Env
  | [] => env
  | first :: rest => rowEnv (first.extend env start) (first.freeAfter start) rest

mutual

/-- The uses and declarations of names in a statement. -/
def Stmt.ties (env : Env) (start : Nat) : Stmt → List Tie
  | .declaration _ declarators => declaratorTies env start declarators
  | .expression _ e => e.ties env
  | .returnStmt _ value => partTies env value
  | .ifThen _ test body | .whileLoop _ test body => test.ties env ++ body.ties env start
  | .ifElse _ test body otherwise =>
    test.ties env ++ body.ties env start ++ otherwise.ties env (body.freeAfter start)
  | .doLoop _ body test => body.ties env start ++ test.ties env
  | .forLoop _ init test update body =>
    startTies env start init ++ partTies (startEnv env start init) test ++
      partTies (startEnv env start init) update ++
      body.ties (startEnv env start init) (startFreeAfter start init)
  | .forOf _ _ left right body | .forIn _ left right body =>
    right.ties env ++ left.ties env start ++
      body.ties (left.extend env start) (left.freeAfter start)
  | .switchOn _ discriminant cases => discriminant.ties env ++ caseTies env start cases
  | .block _ body => rowTies env start body
  | .breakStmt .. | .continueStmt .. | .emptyStmt _ | .importFrom .. | .typeOnly _ | .odd .. => []

/-- The uses and declarations of names in statements in a row. -/
def rowTies (env : Env) (start : Nat) : List Stmt → List Tie
  | [] => []
  | first :: rest =>
    first.ties env start ++ rowTies (first.extend env start) (first.freeAfter start) rest

/-- The uses and declarations of names in the clauses of a `switch`, which have one environment. -/
def caseTies (env : Env) (start : Nat) : List (Case Stmt) → List Tie
  | [] => []
  | ⟨test, body⟩ :: rest =>
    partTies env test ++ rowTies env start body ++
      caseTies (rowEnv env start body) (rowFreeAfter start body) rest

end

/-- After any statement but a declaration the environment is what it was before. -/
theorem Stmt.extend_eq (env : Env) (start : Nat) {s : Stmt}
    (isOther : ∀ span declarators, s ≠ .declaration span declarators) :
    s.extend env start = env := by
  cases s with
  | declaration span declarators => exact absurd rfl (isOther span declarators)
  | _ => rfl

/-! ## Scripts -/

namespace Function

/-- The parameters of a function, and the uses and declarations in its body. A function sees
nothing of what is declared around it. -/
def ties (start : Nat) (f : Function) : List Tie :=
  f.body.elim [] fun body =>
    namesTies start (f.params.map (·.name)) ++
      rowTies (bindNames [] start (f.params.map (·.name))) (start + f.params.length) body

def freeAfter (start : Nat) (f : Function) : Nat :=
  f.body.elim start (rowFreeAfter (start + f.params.length))

end Function

namespace Item

def freeAfter (start : Nat) : Item → Nat
  | function f => f.freeAfter start
  | exportedVariables _ declarators => start + declarators.length
  | statement s => s.freeAfter start
  | _ => start

/-- The environment of what follows an item in the main program. -/
def extend (env : Env) (start : Nat) : Item → Env
  | exportedVariables _ declarators => declaratorEnv env start declarators
  | statement s => s.extend env start
  | _ => env

/-- The names in an item that is a function. -/
def functionTies (start : Nat) : Item → List Tie
  | function f => f.ties start
  | _ => []

/-- The names in an item that belongs to the main program. -/
def mainTies (env : Env) (start : Nat) : Item → List Tie
  | exportedVariables _ declarators => declaratorTies env start declarators
  | statement s => s.ties env start
  | _ => []

end Item

/-- The names in the functions of a script. -/
def functionTies (start : Nat) : List Item → List Tie
  | [] => []
  | item :: rest => item.functionTies start ++ functionTies (item.freeAfter start) rest

/-- The names in the main program of a script. -/
def mainTies (env : Env) (start : Nat) : List Item → List Tie
  | [] => []
  | item :: rest =>
    item.mainTies env start ++ mainTies (item.extend env start) (item.freeAfter start) rest

end ScriptToC.Source
