import ScriptToC.CCode.Variable

/-!
# Scopes

The blocks of the C program and the locals that each of them declares. Scopes are numbered in the
order of their creation. A scope belongs to a function, whose outermost scope is its function scope;
every other scope has a parent. A scope declares a name at most once.

The operations on a scope that does not exist give no result and change nothing.
-/

set_option autoImplicit false

namespace ScriptToC

/-- The number of a scope. -/
abbrev ScopeId := Nat

/-- One scope: its parent, the function scope it belongs to, and its locals in the order of their
introduction. -/
structure Scope where
  parent : Option ScopeId
  func : ScopeId
  locals : List Variable
  deriving DecidableEq, Repr

/-- All scopes, in the order of their creation. -/
structure ScopeTree where
  scopes : List Scope := []
  deriving DecidableEq, Repr

namespace ScopeTree

/-- The scope with a number. -/
def find? (tree : ScopeTree) (id : ScopeId) : Option Scope :=
  tree.scopes[id]?

/-- The number of scopes. -/
def size (tree : ScopeTree) : Nat :=
  tree.scopes.length

/-- There is no scope yet. -/
def isEmpty (tree : ScopeTree) : Bool :=
  tree.scopes.isEmpty

/-- A new scope that is a function scope. -/
def newFunction (tree : ScopeTree) : ScopeId × ScopeTree :=
  (tree.size, ⟨tree.scopes ++ [⟨none, tree.size, []⟩]⟩)

/-- A new scope inside another, of the same function. -/
def newChild? (tree : ScopeTree) (parent : ScopeId) : Option (ScopeId × ScopeTree) :=
  (tree.find? parent).map fun scope =>
    (tree.size, ⟨tree.scopes ++ [⟨some parent, scope.func, []⟩]⟩)

/-- The parent of a scope; a function scope has none. -/
def parent? (tree : ScopeTree) (id : ScopeId) : Option (Option ScopeId) :=
  (tree.find? id).map (·.parent)

/-- The function scope of a scope. -/
def func? (tree : ScopeTree) (id : ScopeId) : Option ScopeId :=
  (tree.find? id).map (·.func)

/-- The locals of a scope. -/
def locals? (tree : ScopeTree) (id : ScopeId) : Option (List Variable) :=
  (tree.find? id).map (·.locals)

/-- The tree with other locals in one scope. -/
def setLocals (tree : ScopeTree) (id : ScopeId) (locals : List Variable) : ScopeTree :=
  ⟨tree.scopes.modify id fun scope => { scope with locals }⟩

/-- The locals with one more, unless the name is declared already. -/
def declare (locals : List Variable) (x : Variable) : List Variable :=
  if locals.any (·.name == x.name) then locals else locals ++ [x]

/-- Declares a local. The answer tells whether its name was new in the scope. -/
def add? (tree : ScopeTree) (id : ScopeId) (x : Variable) : Option (Bool × ScopeTree) :=
  (tree.locals? id).map fun locals =>
    (!locals.any (·.name == x.name), tree.setLocals id (declare locals x))

/-- Takes all locals out of a scope. -/
def drain? (tree : ScopeTree) (id : ScopeId) : Option (List Variable × ScopeTree) :=
  (tree.locals? id).map fun locals => (locals, tree.setLocals id [])

/-- Declares several locals, in order. -/
def extend? (tree : ScopeTree) (id : ScopeId) : List Variable → Option ScopeTree
  | [] => some tree
  | x :: rest => do
    let (_, tree) ← tree.add? id x
    tree.extend? id rest

/-- The scopes from `id` outward up to the scope `func`; the first argument bounds the way. -/
def chainFrom (tree : ScopeTree) (func : ScopeId) : (fuel : Nat) → ScopeId → Option (List ScopeId)
  | 0, id => some [id]
  | fuel + 1, id =>
    if id = func then
      some [id]
    else
      match tree.parent? id with
      | none => none
      | some none => some [id]
      | some (some parent) => (tree.chainFrom func fuel parent).map (id :: ·)

/-- A scope and those around it up to its function scope, innermost first. -/
def chain? (tree : ScopeTree) (id : ScopeId) : Option (List ScopeId) :=
  (tree.func? id).bind fun func => tree.chainFrom func tree.size id

/-- Every local of every scope, scope by scope. -/
def allLocals (tree : ScopeTree) : List Variable :=
  tree.scopes.flatMap (·.locals)

/-- The releases of what a function owns where it is left: the locals of the scopes from `id`
outward, innermost scope first and in the order of declaration, except the one whose value is
returned. -/
def releases? (tree : ScopeTree) (id : ScopeId) (returned : Option String) :
    Option (List Release) := do
  let chain ← tree.chain? id
  let locals ← chain.mapM tree.locals?
  return (locals.flatten.filter fun x => returned ≠ some x.name).filterMap Variable.release?

end ScopeTree

end ScriptToC
