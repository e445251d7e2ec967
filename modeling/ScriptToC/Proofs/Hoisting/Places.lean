import ScriptToC.CCode.Program
import ScriptToC.Ir.Stmt

/-!
# Bindings and what their names stand for

A script binds names in declarations and in the heads of loops. Lowering keeps the bindings apart,
also if they have the same name; C tells them apart by the block that declares them. A statement and
its C form have the same parts, so a place in the one is a place in the other: at each level it
names a statement of a row and one of its parts.

`Stmt.bindings` lists the bindings of a statement with two places: the site where the binding is
first assigned, and its home, the innermost block around the site, which declares it in C. Loops
over collections and clauses of a `switch` are no blocks: what they bind moves outward.
`CFunction.resolve` follows the rule of C: a name stands for what the innermost block declares under
it, and a function declares its parameters before its locals.
-/

set_option autoImplicit false

namespace ScriptToC

/-- A place in nested statements: a statement of a row and one of its parts, level by level. -/
abbrev Place := List (Nat × Nat)

/-! ## Bindings -/

/-- A binding: its declaration and name, where it is assigned first, and the block that declares it
in C. -/
structure Binding where
  id : NodeId
  name : String
  site : Place
  home : Place
  deriving DecidableEq, Repr

namespace Binding

/-- A binding in a block, seen from outside the block. -/
def enter (step : Nat × Nat) (b : Binding) : Binding :=
  { b with site := step :: b.site, home := step :: b.home }

/-- A binding in a part that declares nothing, seen from outside the part. -/
def leave (step : Nat × Nat) (b : Binding) : Binding :=
  { b with site := step :: b.site, home := if b.home = [] then [] else step :: b.home }

/-- The binding of a variable that the surrounding block declares. -/
def ofDeclarator (site : Place) (declarator : Ir.Declarator) : Binding :=
  ⟨declarator.node.id, declarator.name, site, []⟩

end Binding

namespace Ir

/-- The variables that the start of a `for` loop declares. -/
def startDeclarators : Option ForInit → List Declarator
  | some (.declare declarators) => declarators
  | _ => []

/-- The variable that a loop over a collection declares. -/
def ForBinding.declarators : ForBinding → List Declarator
  | .declare declarator => [declarator]
  | .target _ => []

mutual

/-- The bindings of the statement with a given index. -/
def Stmt.bindings (index : Nat) : Stmt → List Binding
  | .ifThen _ _ ⟨_, body⟩ => (rowBindings 0 body).map (.enter (index, 0))
  | .ifElse _ _ ⟨_, body⟩ ⟨_, otherwise⟩ =>
    (rowBindings 0 body).map (.enter (index, 0)) ++
      (rowBindings 0 otherwise).map (.enter (index, 1))
  | .switchOn _ _ clauses => (clauseBindings 0 clauses).map (.leave (index, 0))
  | .whileLoop _ _ ⟨_, body⟩ => (rowBindings 0 body).map (.enter (index, 0))
  | .doLoop _ ⟨_, body⟩ _ => (rowBindings 0 body).map (.enter (index, 0))
  | .forLoop _ init _ _ ⟨_, body⟩ =>
    (startDeclarators init).map (.ofDeclarator []) ++ (rowBindings 0 body).map (.enter (index, 0))
  | .forOf _ left _ body =>
    left.declarators.map (.ofDeclarator [(index, 0)]) ++ (body.bindings 0).map (.leave (index, 0))
  | .forIn _ left _ ⟨_, body⟩ =>
    left.declarators.map (.ofDeclarator [(index, 0)]) ++
      (rowBindings 0 body).map (.leave (index, 0))
  | .block _ body => (rowBindings 0 body).map (.enter (index, 0))
  | .declaration _ declarators => declarators.map (.ofDeclarator [])
  | _ => []

/-- The bindings of statements in a row, the first of which has the given index. -/
def rowBindings (index : Nat) : List Stmt → List Binding
  | [] => []
  | first :: rest => first.bindings index ++ rowBindings (index + 1) rest

/-- The bindings of the clauses of a `switch`, the first of which has the given index. -/
def clauseBindings (index : Nat) : List (Clause Stmt) → List Binding
  | [] => []
  | ⟨_, body⟩ :: rest =>
    (rowBindings 0 body).map (.leave (index, 0)) ++ clauseBindings (index + 1) rest

end

end Ir

/-! ## Names in C -/

/-- What a name stands for: a parameter, or a local of a block. -/
inductive Declaration
  | parameter (param : Ir.Param)
  | inBlock (block : Place) (x : Variable)
  deriving DecidableEq, Repr

/-- The type with which a name is declared. -/
def Declaration.type : Declaration → CType
  | parameter param => param.type
  | inBlock _ x => x.type

/-- The local of a name. -/
def localOf (locals : List Variable) (name : String) : Option Variable :=
  locals.find? fun x => x.name == name

/-- The parts of a C statement: the locals that each declares, and its statements. -/
def CStmt.parts : CStmt → List (List Variable × List CStmt)
  | ifThen _ body | whileLoop _ body | doLoop body _ | forLoop _ _ _ _ body | block body =>
    [(body.locals, body.statements)]
  | ifElse _ body otherwise =>
    [(body.locals, body.statements), (otherwise.locals, otherwise.statements)]
  | switchOn _ statements | switchByIndex _ _ statements | clause _ statements
  | forFixed _ _ _ _ _ statements | forDynamic _ _ _ _ statements | forKeys _ _ _ statements =>
    [([], statements)]
  | _ => []

/-- The part of a row that a step leads to. -/
def partAt (statements : List CStmt) (step : Nat × Nat) : Option (List Variable × List CStmt) :=
  statements[step.1]?.bind fun statement => statement.parts[step.2]?

/-- What a name stands for at a place below some statements, which stand in the block `here` where
it stands for `known`. There is nothing at a place that does not exist. -/
def resolveFrom (name : String) (known : Option Declaration) (here : Place)
    (statements : List CStmt) : Place → Option Declaration
  | [] => known
  | step :: rest =>
    (partAt statements step).bind fun part =>
      resolveFrom name (((localOf part.1 name).map (.inBlock (here ++ [step]))).or known)
        (here ++ [step]) part.2 rest

/-- What a name stands for at a place of a function. -/
def CFunction.resolve (function : CFunction) (params : List Ir.Param) (name : String)
    (place : Place) : Option Declaration :=
  let outermost := ((params.find? fun param => param.name == name).map .parameter).or
    ((localOf function.locals name).map (.inBlock []))
  resolveFrom name outermost [] function.statements place

end ScriptToC
