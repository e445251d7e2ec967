import ScriptToC.Proofs.Hoisting.Places

/-!
# Paths through statements

A path through a statement is what one run may do, as far as it assigns to variables: the writes in
turn, each with the place where it happens, and how the run leaves the statement. Initializers,
assignments and the variables of loops over collections write. Which branch a condition takes, how
often a loop runs and which clause a `switch` selects is left open, so that each combination is a
path; the right side of `&&` and `||` and the branches of a conditional expression may stay
unevaluated.

A returned value is no part of a path, as the frees of a `return` stand before it.
-/

set_option autoImplicit false

namespace ScriptToC

open Ir

/-! ## Writes -/

/-- An assignment to a name at a place. -/
structure Write where
  name : String
  place : Place
  deriving DecidableEq, Repr

/-- A write in a part, seen from outside the part. -/
def Write.enter (step : Nat × Nat) (write : Write) : Write :=
  { write with place := step :: write.place }

/-- Rows of writes at one place. -/
def writesAt (place : Place) (ways : List (List String)) : List (List Write) :=
  ways.map (·.map (⟨·, place⟩))

/-- One row after another. -/
def inTurn (first rest : List (List String)) : List (List String) :=
  first.flatMap fun written => rest.map (written ++ ·)

namespace Ir

mutual

/-- The names that an expression assigns to, in turn: one row for each way to evaluate it. -/
def Expr.ways : Expr → List (List String)
  | .number _ _ | .string _ _ | .bool _ _ | .null _ | .ident _ _ => [[]]
  | .paren _ inner => inner.ways
  | .array _ elements => listWays elements
  | .object _ properties => propertyWays properties
  | .member _ object _ => object.ways
  | .index _ object key => inTurn object.ways key.ways
  | .call _ callee args => inTurn callee.ways (listWays args)
  | .unary _ _ arg => arg.ways
  | .update _ _ _ target => target.ways
  | .binary _ _ lhs rhs => inTurn lhs.ways rhs.ways
  | .logical _ _ lhs rhs => lhs.ways ++ inTurn lhs.ways rhs.ways
  | .assign _ _ target value => inTurn (inTurn target.ways value.ways) [target.ident?.toList]
  | .conditional _ test yes no => inTurn test.ways (yes.ways ++ no.ways)

/-- The names that expressions assign to, one after another. -/
def listWays : List Expr → List (List String)
  | [] => [[]]
  | first :: rest => inTurn first.ways (listWays rest)

/-- The names that the values of properties assign to, one after another. -/
def propertyWays : List (String × Expr) → List (List String)
  | [] => [[]]
  | (_, value) :: rest => inTurn value.ways (propertyWays rest)

end

/-- The ways of an expression that may be missing. -/
def partWays (part : Option Expr) : List (List String) :=
  part.elim [[]] Expr.ways

/-- The names that a declaration assigns to: those of its initialized variables. -/
def declarationWays : List Declarator → List (List String)
  | [] => [[]]
  | ⟨_, name, init⟩ :: rest =>
    inTurn (init.elim [[]] fun e => inTurn e.ways [[name]]) (declarationWays rest)

/-- The names that the start of a `for` loop assigns to. -/
def startWays : Option ForInit → List (List String)
  | some (.declare declarators) => declarationWays declarators
  | some (.evaluate e) => e.ways
  | none => [[]]

/-- The names that a loop over a collection assigns to for an element. -/
def ForBinding.ways : ForBinding → List (List String)
  | .declare declarator => [[declarator.name]]
  | .target e => inTurn e.ways [e.ident?.toList]

/-- The names that the tests of clauses assign to, one after another. -/
def testWays : List (Clause Stmt) → List (List String)
  | [] => [[]]
  | ⟨test, _⟩ :: rest => inTurn (partWays test) (testWays rest)

/-- The ways to reach a clause: the tests up to its own have been evaluated, or all tests if it is
the default clause. -/
def reachingWays (clauses : List (Clause Stmt)) (index : Nat) : List (List String) :=
  match clauses[index]?.bind (·.test) with
  | some _ => testWays (clauses.take (index + 1))
  | none => testWays clauses

end Ir

/-! ## Paths -/

/-- How a run leaves a statement. A `return` is known by the place of its row and its index there.
-/
inductive Exit
  | normal
  | broken
  | continued
  | returned (place : Place) (index : Nat)
  deriving DecidableEq, Repr

namespace Exit

/-- An exit from a part, seen from outside the part. -/
def enter (step : Nat × Nat) : Exit → Exit
  | returned place index => returned (step :: place) index
  | other => other

/-- A loop goes on after its body. -/
def repeats : Exit → Bool
  | normal | continued => true
  | broken | returned _ _ => false

/-- How a loop ends with its body, if it does. -/
def endsLoop : Exit → Option Exit
  | broken => some normal
  | returned place index => some (returned place index)
  | normal | continued => none

/-- How a `switch` is left from a clause. -/
def leavesSwitch : Exit → Exit
  | broken => normal
  | other => other

end Exit

/-- Paths, each with its writes and its exit. -/
abbrev Paths := List Write → Exit → Prop

namespace Paths

/-- Nothing is done but to leave. -/
def leave (exit : Exit) : Paths := fun written out =>
  written = [] ∧ out = exit

/-- There is no path. -/
def none : Paths := fun _ _ => False

/-- One of the rows of writes is done. -/
def writing (ways : List (List Write)) : Paths := fun written out =>
  written ∈ ways ∧ out = .normal

/-- A path of one of two kinds. -/
def either (first second : Paths) : Paths := fun written out =>
  first written out ∨ second written out

/-- A path that goes on if it was not left otherwise. -/
def andThen (first rest : Paths) : Paths := fun written out =>
  first written out ∧ out ≠ .normal ∨
    ∃ before after, first before .normal ∧ rest after out ∧ written = before ++ after

/-- A path in a part. -/
def within (step : Nat × Nat) (inside : Paths) : Paths := fun written out =>
  ∃ written' out', inside written' out' ∧ written = written'.map (.enter step) ∧
    out = out'.enter step

/-- A path through the body of a loop, and further if the loop goes on. -/
def iterate (body rest : Paths) : Paths := fun written out =>
  (∃ exit, body written exit ∧ exit.endsLoop = some out) ∨
    ∃ before after exit, body before exit ∧ exit.repeats = true ∧ rest after out ∧
      written = before ++ after

/-- A path through a loop: it stops with one of the rows `stop`, or enters its body with one of the
rows `go` and does one of the rows `update` before it repeats. -/
inductive loop (stop go update : List (List Write)) (body : Paths) : Paths
  | stop {written : List Write} (stops : written ∈ stop) : loop stop go update body written .normal
  | leave {first written : List Write} {exit out : Exit} (goes : first ∈ go)
      (inside : body written exit) (ends : exit.endsLoop = some out) :
      loop stop go update body (first ++ written) out
  | again {first written step later : List Write} {exit out : Exit} (goes : first ∈ go)
      (inside : body written exit) (repeats : exit.repeats = true) (steps : step ∈ update)
      (more : loop stop go update body later out) :
      loop stop go update body (first ++ (written ++ (step ++ later))) out

/-- A path through the clauses of a `switch`. -/
def ofClauses (clauses : Paths) : Paths := fun written out =>
  ∃ exit, clauses written exit ∧ out = exit.leavesSwitch

end Paths

open Paths

namespace Ir

mutual

/-- The paths through the statement with a given index. -/
def Stmt.paths (index : Nat) : Stmt → Paths
  | .breakStmt _ => leave .broken
  | .continueStmt _ => leave .continued
  | .emptyStmt _ | .importFrom _ _ => leave .normal
  | .returnStmt _ _ => leave (.returned [] index)
  | .expression _ e => writing (writesAt [] e.ways)
  | .declaration _ declarators => writing (writesAt [] (declarationWays declarators))
  | .block _ body => within (index, 0) (rowPaths 0 body)
  | .ifThen _ test ⟨_, body⟩ =>
    andThen (writing (writesAt [] test.ways))
      (either (leave .normal) (within (index, 0) (rowPaths 0 body)))
  | .ifElse _ test ⟨_, body⟩ ⟨_, otherwise⟩ =>
    andThen (writing (writesAt [] test.ways))
      (either (within (index, 0) (rowPaths 0 body)) (within (index, 1) (rowPaths 0 otherwise)))
  | .whileLoop _ test ⟨_, body⟩ =>
    loop (writesAt [] test.ways) (writesAt [] test.ways) [[]] (within (index, 0) (rowPaths 0 body))
  | .doLoop _ ⟨_, body⟩ test =>
    let body := within (index, 0) (rowPaths 0 body)
    iterate body (loop (writesAt [] test.ways) (writesAt [] test.ways) [[]] body)
  | .forLoop _ init test update ⟨_, body⟩ =>
    -- Without a test, the loop does not stop by itself.
    andThen (writing (writesAt [] (startWays init)))
      (loop (writesAt [] (test.elim [] Expr.ways)) (writesAt [] (partWays test))
        (writesAt [] (partWays update)) (within (index, 0) (rowPaths 0 body)))
  | .forOf _ left right body =>
    andThen (writing (writesAt [] right.ways))
      (loop [[]] (writesAt [(index, 0)] left.ways) [[]] (within (index, 0) (body.paths 0)))
  | .forIn _ left right ⟨_, body⟩ =>
    andThen (writing (writesAt [] right.ways))
      (loop [[]] (writesAt [(index, 0)] left.ways) [[]] (within (index, 0) (rowPaths 0 body)))
  | .switchOn _ discriminant clauses =>
    andThen (writing (writesAt [] discriminant.ways))
      (ofClauses (selectedPaths (index, 0) clauses 0 clauses))

/-- The paths through statements in a row, the first of which has the given index. -/
def rowPaths (index : Nat) : List Stmt → Paths
  | [] => leave .normal
  | first :: rest => andThen (first.paths index) (rowPaths (index + 1) rest)

/-- The paths through clauses that fall through, the first of which has the given index. -/
def clausePaths (index : Nat) : List (Clause Stmt) → Paths
  | [] => leave .normal
  | ⟨_, body⟩ :: rest =>
    andThen (within (index, 0) (rowPaths 0 body)) (clausePaths (index + 1) rest)

/-- The paths that select one of the last clauses of a `switch`, or none of all its clauses. -/
def selectedPaths (step : Nat × Nat) (all : List (Clause Stmt)) (index : Nat) :
    List (Clause Stmt) → Paths
  | [] => if all.all (·.test.isSome) then writing (writesAt [] (testWays all)) else none
  | ⟨_, body⟩ :: rest =>
    either
      (andThen (writing (writesAt [] (reachingWays all index)))
        (within step
          (andThen (within (index, 0) (rowPaths 0 body)) (clausePaths (index + 1) rest))))
      (selectedPaths step all (index + 1) rest)

end

end Ir

end ScriptToC
