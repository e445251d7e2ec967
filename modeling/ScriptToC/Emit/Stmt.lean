import ScriptToC.Emit.Expr
import ScriptToC.Ir.Stmt
import ScriptToC.Names
import ScriptToC.Scope

/-!
# Statements in C

Emitting a statement opens a scope for each block, declares the locals that a block introduces in
its scope, takes names for loop counters and temporaries, and registers headers. What it did before
a failure stays done.

C has its declarations at the head of a block. A variable is therefore declared in the scope of the
block around it, and only its initializer stays where it was; the locals of a clause of a `switch`,
and of a loop over a collection, move to the scope around the statement.
-/

set_option autoImplicit false

namespace ScriptToC

open Ir

/-- What is known of a program from the start: the resolved types, and how an import that stands for
a header begins. -/
structure Setting where
  types : Types
  includeMarker : String

/-- What is built up while a program is emitted. -/
structure Workspace where
  scopes : ScopeTree := {}
  names : Names := {}
  headers : Headers := {}

/-- A step of emitting a program: it may change the workspace and may fail. -/
abbrev EmitM (α : Type) := ReaderT Setting (ExceptT EmitError (StateM Workspace)) α

namespace Emit

/-! ## Steps -/

/-- Emits an expression: of the workspace, that can change the headers only. -/
def expr {α : Type} (action : Types → ExprM α) : EmitM α := fun setting workspace =>
  let (result, headers) := action setting.types workspace.headers
  (result, { workspace with headers })

/-- A new function scope. -/
def newFunction : EmitM ScopeId :=
  modifyGet fun workspace =>
    let (id, scopes) := workspace.scopes.newFunction
    (id, { workspace with scopes })

/-- A change of the scopes, which fails if `scope` does not exist. -/
def changeScopes {α : Type} (scope : ScopeId) (change : ScopeTree → Option (α × ScopeTree)) :
    EmitM α := do
  match change (← get).scopes with
  | some (result, scopes) =>
    modify fun workspace => { workspace with scopes }
    return result
  | none => throw (.unknownScope scope)

/-- Something read from the scopes, which fails if `scope` does not exist. -/
def askScopes {α : Type} (scope : ScopeId) (ask : ScopeTree → Option α) : EmitM α := do
  match ask (← get).scopes with
  | some result => return result
  | none => throw (.unknownScope scope)

/-- A new scope inside another. -/
def newChild (parent : ScopeId) : EmitM ScopeId :=
  changeScopes parent (·.newChild? parent)

/-- Declares a local, unless its scope has one of that name. -/
def declare (scope : ScopeId) (x : Variable) : EmitM Unit := do
  let _ ← changeScopes scope (·.add? scope x)

/-- The locals of a scope. -/
def localsOf (scope : ScopeId) : EmitM (List Variable) :=
  askScopes scope (·.locals? scope)

/-- The releases of what is owned in a scope and around it. -/
def releases (scope : ScopeId) (returned : Option String) : EmitM (List Release) :=
  askScopes scope (·.releases? scope returned)

/-- Moves the locals of a scope to another. -/
def hoist (source target : ScopeId) : EmitM Unit := do
  let moved ← changeScopes source (·.drain? source)
  changeScopes target fun tree => (tree.extend? target moved).map ((), ·)

/-- The loop counter of a statement. -/
def counter (id : NodeId) : EmitM String :=
  modifyGet fun workspace =>
    let (name, names) := workspace.names.counter id
    (name, { workspace with names })

/-- The temporary of a statement. -/
def temporary (id : NodeId) (hint : String) : EmitM String :=
  modifyGet fun workspace =>
    let (name, names) := workspace.names.temporary id hint
    (name, { workspace with names })

/-- The resolved type of a node, which must have one. -/
def typeOfNode (node : Node) (what : Subject) : EmitM CType := do
  match (← read).types node.id with
  | some type => return type
  | none => throw (.missingType node.span what)

/-! ## Parts of statements -/

/-- A block in a new scope inside `scope`, with the statements that `body` gives in that scope. -/
def block (scope : ScopeId) (body : ScopeId → EmitM (List CStmt)) : EmitM (Block CStmt) := do
  let inner ← newChild scope
  let statements ← body inner
  return ⟨← localsOf inner, statements, false⟩

/-- The statements of a new scope inside `scope`, whose locals move to `scope`. -/
def hoisted (scope : ScopeId) (body : ScopeId → EmitM (List CStmt)) : EmitM (List CStmt) := do
  let inner ← newChild scope
  let statements ← body inner
  hoist inner scope
  return statements

/-- A returned value, and the releases of everything but the variable that it names. -/
def returned (scope : ScopeId) (value : Option Expr) : EmitM CStmt := do
  let text ← value.mapM fun e => expr (exprText · e)
  return .returnStmt text (← releases scope (value.bind Expr.ident?))

/-- The assignments of a declaration, whose variables are declared in `scope`. -/
def declarations (scope : ScopeId) : List Declarator → EmitM (List Assignment)
  | [] => return []
  | declarator :: rest => do
    let type ← typeOfNode declarator.node (.localVariable declarator.name)
    declare scope ⟨declarator.name, type⟩
    let first ← declarator.init.mapM fun e =>
      expr (assignment · declarator.name (some type) e)
    return first.toList ++ (← declarations scope rest)

/-- What each element of a collection is assigned to: a new local, or a place. -/
def binding (scope : ScopeId) : ForBinding → EmitM String
  | .declare declarator => do
    let type ← typeOfNode declarator.node (.loopVariable declarator.name)
    declare scope ⟨declarator.name, type⟩
    return declarator.name
  | .target e => expr (placeText · e)

/-- The head of a loop over a collection: the counter, the collection and what is assigned. -/
def loopHead (scope : ScopeId) (id : NodeId) (left : ForBinding) (right : Expr) :
    EmitM (String × String × String) := do
  let name ← counter id
  declare scope ⟨name, .number⟩
  let collection ← expr (exprText · right)
  let target ← binding scope left
  return (name, collection, target)

/-- An expression statement. A plain assignment may become several statements. -/
def expressionStatement (e : Expr) : EmitM Assignment := do
  match e with
  | .assign _ none target value =>
    let type := (← read).types target.id
    let place ← expr (placeText · target)
    expr (assignment · place type value)
  | other => return .expression (← expr (exprText · other))

/-- The header that an import stands for: what follows the first slash of a path that begins with
the marker, without a final `/index`. -/
def headerOf (marker path : String) : Option String :=
  if marker.toList.isPrefixOf path.toList then
    match path.toList.dropWhile (· ≠ '/') with
    | [] => none
    | _ :: rest =>
      let index := "/index".toList
      let name := if index.isSuffixOf rest then rest.take (rest.length - index.length) else rest
      if name.isEmpty then none else some (String.ofList name)
  else
    none

/-- Registers the header that an import stands for, if it stands for one. -/
def importHeader (path : String) : EmitM Unit := do
  match headerOf (← read).includeMarker path with
  | some header => expr fun _ => needs header
  | none => return ()

/-- How a `switch` finds its clause: by a number, or by the index of the first matching clause. -/
inductive Selection
  | value (subject : String)
  | index (subject compared : String)

/-- The subject of a `switch`. A value that is no number is compared with the clauses one after
another, and the index of the match is kept in a temporary. -/
def selection (scope : ScopeId) (id : NodeId) (discriminant : Expr) : EmitM Selection := do
  let type := ((← read).types discriminant.id).getD .unknown
  let subject ← expr (exprText · discriminant)
  if type.isNumber then
    return .value subject
  else
    let name ← temporary id "tmp_switch"
    declare scope ⟨name, .number⟩
    expr fun _ => needs "string"
    return .index name subject

/-- The label of a clause and, if clauses are found by their index, its comparison. -/
def label (selection : Selection) (index : Nat) (test : Expr) : EmitM (String × List String) := do
  let value ← expr (exprText · test)
  match selection with
  | .value _ => return (value, [])
  | .index _ compared =>
    return (toString index,
      ["!strcmp(" ++ compared ++ ", " ++ value ++ ") ? " ++ toString index])

/-- What a `for` loop does first: the assignments of a declaration, which stand before the loop, or
an expression in its head. -/
def loopStart (scope : ScopeId) : Option ForInit → EmitM (Option (List Assignment) × String)
  | some (.declare declarators) => do
    return (some (← declarations scope declarators), "")
  | some (.evaluate e) => do
    return (none, ← expr (exprText · e))
  | none => return (none, "")

/-- A `switch` from its clauses. -/
def Selection.switch (selection : Selection) (comparisons : List String) (cases : List CStmt) :
    CStmt :=
  match selection with
  | .value subject => .switchOn subject cases
  | .index subject _ => .switchByIndex subject comparisons cases

/-! ## Statements -/

mutual

/-- The C form of a statement in a scope. -/
def stmt (scope : ScopeId) : Stmt → EmitM CStmt
  | .breakStmt _ => return .breakStmt
  | .continueStmt _ => return .continueStmt
  | .emptyStmt _ => return .emptyStmt
  | .returnStmt _ value => returned scope value
  | .ifThen _ test ⟨_, body⟩ => do
    let test ← expr (condition · test)
    return .ifThen test (← block scope fun inner => stmts inner body)
  | .ifElse _ test ⟨_, body⟩ ⟨_, otherwise⟩ => do
    let test ← expr (condition · test)
    let yes ← block scope fun inner => stmts inner body
    let no ← block scope fun inner => stmts inner otherwise
    -- Without braces the inner `if` would take the `else`.
    return .ifElse test { yes with forceBraces := Stmt.bodyEndsInOpenIf body } no
  | .switchOn node discriminant clauseList => do
    let selection ← selection scope node.id discriminant
    let (comparisons, cases) ← clauses scope selection 0 clauseList
    return selection.switch comparisons cases
  | .whileLoop _ test ⟨_, body⟩ => do
    let test ← expr (condition · test)
    return .whileLoop test (← block scope fun inner => stmts inner body)
  | .doLoop _ ⟨_, body⟩ test => do
    let body ← block scope fun inner => stmts inner body
    return .doLoop body (← expr (condition · test))
  | .forLoop _ init test update ⟨_, body⟩ => do
    let (declared, init) ← loopStart scope init
    let test ← test.mapM fun e => expr (condition · e)
    let update ← update.mapM fun e => expr (exprText · e)
    let body ← block scope fun inner => stmts inner body
    return .forLoop declared init (test.getD "") (update.getD "") body
  | .forOf node left right body => do
    match ← typeOfNode right.node .iterated with
    | .array element capacity dynamic =>
      let cast := if element.isDynamicArray then "(void *)" else ""
      let (counter, array, target) ← loopHead scope node.id left right
      let body ← hoisted scope fun inner => do return [← stmt inner body]
      if dynamic then
        return .forDynamic counter array cast target body
      else
        return .forFixed counter capacity array cast target body
    | other => throw (.unsupported right.span (.iterated other))
  | .forIn node left right ⟨_, body⟩ => do
    let type ← typeOfNode right.node .iterated
    if type.isDict then
      let (counter, dict, target) ← loopHead scope node.id left right
      return .forKeys counter dict target (← hoisted scope fun inner => stmts inner body)
    else
      throw (.unsupported right.span (.enumerated type))
  | .expression _ e => return .expression (← expressionStatement e)
  | .block _ body => return .block (← block scope fun inner => stmts inner body)
  | .importFrom _ path => do
    importHeader path
    return .importStmt
  | .declaration _ declarators => return .declaration (← declarations scope declarators)

/-- The C forms of statements that follow one another. -/
def stmts (scope : ScopeId) : List Stmt → EmitM (List CStmt)
  | [] => return []
  | first :: rest => do
    let first ← stmt scope first
    return first :: (← stmts scope rest)

/-- The C forms of the clauses of a `switch`, the first of which has the given index: the
comparisons that find a clause, and the clauses. -/
def clauses (scope : ScopeId) (selection : Selection) (index : Nat) :
    List (Clause Stmt) → EmitM (List String × List CStmt)
  | [] => return ([], [])
  | ⟨test, body⟩ :: rest => do
    let found ← test.mapM (label selection index)
    let statements ← hoisted scope fun inner => stmts inner body
    let (comparisons, cases) ← clauses scope selection (index + 1) rest
    return (found.elim [] (·.2) ++ comparisons, .clause (found.map (·.1)) statements :: cases)

end

end Emit

end ScriptToC
