import ScriptToC.Proofs.Emission.Evolution
import ScriptToC.Proofs.Emission.Rules
import ScriptToC.Proofs.Names.Distinct

/-!
# What statements introduce

Scopes are numbered as they are opened, so the scopes of a module can be counted from its source:
each body of a condition or loop, each block and each clause opens one. `introductions` lists the
locals that statements introduce, in the order of their introduction: the variables of declarators
and of loops, the counters of loops over collections and the temporaries of `switch` statements.
Each comes with the scope where its statement stands and with its home, the scope that is to declare
it. A loop over a collection and a clause of a `switch` are homes to nothing.

A counter or temporary has the name that its node is given, and a node keeps its name
(`Evolves.given`).
-/

set_option autoImplicit false

namespace ScriptToC

open Ir

/-- A local that a statement introduces: where the statement stands, and which scope declares the
local. -/
structure Introduction where
  scope : ScopeId
  home : ScopeId
  x : Variable
  deriving DecidableEq, Repr

namespace Ir

/-! ## Counting scopes -/

mutual

/-- The number of scopes that a statement opens. -/
def Stmt.scopeCount : Stmt → Nat
  | .ifThen _ _ ⟨_, body⟩ | .whileLoop _ _ ⟨_, body⟩ | .doLoop _ ⟨_, body⟩ _
  | .forLoop _ _ _ _ ⟨_, body⟩ | .forIn _ _ _ ⟨_, body⟩ | .block _ body => 1 + rowScopes body
  | .ifElse _ _ ⟨_, body⟩ ⟨_, otherwise⟩ => 1 + rowScopes body + (1 + rowScopes otherwise)
  | .switchOn _ _ clauses => clauseScopes clauses
  | .forOf _ _ _ body => 1 + body.scopeCount
  | .breakStmt _ | .continueStmt _ | .emptyStmt _ | .returnStmt _ _ | .expression _ _
  | .importFrom _ _ | .declaration _ _ => 0

/-- The number of scopes that statements in a row open. -/
def rowScopes : List Stmt → Nat
  | [] => 0
  | first :: rest => first.scopeCount + rowScopes rest

/-- The number of scopes that the clauses of a `switch` open. -/
def clauseScopes : List (Clause Stmt) → Nat
  | [] => 0
  | ⟨_, body⟩ :: rest => 1 + rowScopes body + clauseScopes rest

end

/-! ## Introductions -/

section Introductions

variable (types : Types) (names : Names)

/-- The temporary of a `switch`, if it needs one. -/
def switchLocals (id : NodeId) (discriminant : Expr) : List Variable :=
  if ((types discriminant.id).getD .unknown).isNumber then []
  else [⟨(names.temporary id "tmp_switch").1, .number⟩]

/-- The counter and the variable of a loop over a collection. -/
def loopLocals (id : NodeId) (left : ForBinding) : List Variable :=
  ⟨(names.counter id).1, .number⟩ :: Emit.bindingLocals types left

mutual

/-- The locals that a statement introduces. It stands in `scope`, whose locals are declared in
`home`, and the next scope that is opened has the number `next`. -/
def Stmt.introductions (scope home next : ScopeId) : Stmt → List Introduction
  | .ifThen _ _ ⟨_, body⟩ | .whileLoop _ _ ⟨_, body⟩ | .doLoop _ ⟨_, body⟩ _ | .block _ body =>
    rowIntroductions next next (next + 1) body
  | .ifElse _ _ ⟨_, body⟩ ⟨_, otherwise⟩ =>
    rowIntroductions next next (next + 1) body ++
      let next := next + (1 + rowScopes body)
      rowIntroductions next next (next + 1) otherwise
  | .switchOn node discriminant clauses =>
    (switchLocals types names node.id discriminant).map (⟨scope, home, ·⟩) ++
      clauseIntroductions home next clauses
  | .forLoop _ init _ _ ⟨_, body⟩ =>
    (Emit.startLocals types init).map (⟨scope, home, ·⟩) ++
      rowIntroductions next next (next + 1) body
  | .forOf node left _ body =>
    (loopLocals types names node.id left).map (⟨scope, home, ·⟩) ++
      body.introductions next home (next + 1)
  | .forIn node left _ ⟨_, body⟩ =>
    (loopLocals types names node.id left).map (⟨scope, home, ·⟩) ++
      rowIntroductions next home (next + 1) body
  | .declaration _ declarators =>
    (Emit.declaredLocals types declarators).map (⟨scope, home, ·⟩)
  | .breakStmt _ | .continueStmt _ | .emptyStmt _ | .returnStmt _ _ | .expression _ _
  | .importFrom _ _ => []

/-- The locals that statements in a row introduce. -/
def rowIntroductions (scope home next : ScopeId) : List Stmt → List Introduction
  | [] => []
  | first :: rest =>
    first.introductions scope home next ++
      rowIntroductions scope home (next + first.scopeCount) rest

/-- The locals that the clauses of a `switch` introduce. -/
def clauseIntroductions (home next : ScopeId) : List (Clause Stmt) → List Introduction
  | [] => []
  | ⟨_, body⟩ :: rest =>
    rowIntroductions next home (next + 1) body ++
      clauseIntroductions home (next + (1 + rowScopes body)) rest

end

/-- The locals that functions introduce, the first of which has the scope `next`. -/
def bodyIntroductions (next : ScopeId) : List (List Stmt) → List Introduction
  | [] => []
  | body :: rest =>
    rowIntroductions types names next next (next + 1) body ++
      bodyIntroductions (next + (1 + rowScopes body)) rest

/-- The bodies of a module: those of its functions, and the main program. -/
def Module.bodies (module : Module) : List (List Stmt) :=
  module.functions.map (·.body) ++ [module.topLevel]

/-- The locals that a module introduces. -/
def Module.introductions (module : Module) : List Introduction :=
  bodyIntroductions types names 0 module.bodies

end Introductions

end Ir

/-! ## Nodes keep their names -/

namespace Workspace

/-- The names that nodes were given are theirs for good. -/
theorem Evolves.given {w w' : Workspace} (evolves : w.Evolves w') : w.names.Given w'.names := by
  induction evolves with
  | refl => exact .refl _
  | tail _ step ih =>
    cases step with
    | scopes | headers => exact ih
    | counter id => exact ih.trans (Names.counter_given _ id).2
    | temporary id hint => exact ih.trans (Names.temporary_given _ id hint).2

end Workspace

namespace Emit

variable {α : Type} {σ : Setting} {w w' : Workspace} {scope : ScopeId}

theorem Evolving.evolves {m : EmitM α} (evolving : Evolving m) {result : Except EmitError α}
    (run : m σ w = (result, w')) : w.Evolves w' := by
  have evolves := evolving σ w
  rwa [run] at evolves

theorem Emits.evolves {s : Stmt} {c : CStmt} {xs : List Variable}
    (emits : Emits σ scope s w c xs w') : w.Evolves w' :=
  (evolving_stmt scope s).evolves emits.run

theorem EmitsAll.evolves {body : List Stmt} {cs : List CStmt} {xs : List Variable}
    (all : EmitsAll σ scope body w cs xs w') : w.Evolves w' :=
  (evolving_stmts scope body).evolves all.run

theorem EmitsBlock.evolves {body : List Stmt} {b : Block CStmt}
    (block : EmitsBlock σ scope body w b w') : w.Evolves w' :=
  (evolving_block scope fun inner => evolving_stmts inner body).evolves block.run

theorem EmitsHoisted.evolves {body : List Stmt} {cs : List CStmt} {xs : List Variable}
    (hoisted : EmitsHoisted σ scope body w cs xs w') : w.Evolves w' :=
  (evolving_hoisted scope fun inner => evolving_stmts inner body).evolves hoisted.run

theorem EmitsClauses.evolves {select : Selection} {index : Nat} {list : List (Clause Stmt)}
    {comparisons : List String} {cases : List CStmt} {xs : List Variable}
    (clauses : EmitsClauses σ scope select index list w comparisons cases xs w') : w.Evolves w' :=
  (evolving_clauses scope select index list).evolves clauses.run

/-! ## Names that heads take -/

/-- The head of a loop over a collection takes the counter of the node. -/
theorem counter_of_loopHead {id : NodeId} {left : ForBinding} {right : Expr}
    {index collection target : String}
    (run : loopHead scope id left right σ w = (.ok (index, collection, target), w')) :
    index = (w.names.counter id).1 := by
  simp only [loopHead, bind_ok, pure_ok, Prod.mk.injEq] at run
  obtain ⟨_, _, counted, _, _, -, _, _, -, _, _, -, ⟨rfl, -, -⟩, -⟩ := run
  rw [(counter_ok.1 counted).1]

/-- The head of a loop keeps the counter with the node, and has the text of the collection. -/
theorem loopHead_ok {id : NodeId} {left : ForBinding} {right : Expr}
    {index collection target : String}
    (run : loopHead scope id left right σ w = (.ok (index, collection, target), w')) :
    w'.names.counters.lookup id = some index ∧
      ∃ before after, expr (exprText · right) σ before = (.ok collection, after) := by
  rw [loopHead, bind_ok] at run
  obtain ⟨name, middle, counted, run⟩ := run
  have evolves : middle.Evolves w' :=
    ((evolving_declare scope ⟨name, .number⟩).bind fun _ =>
      (evolving_expr (exprText · right)).bind fun collection =>
        (evolving_binding scope left).bind fun target =>
          evolving_pure (name, collection, target)).evolves run
  simp only [bind_ok, pure_ok, Prod.mk.injEq] at run
  obtain ⟨_, before, -, _, after, text, _, _, -, ⟨rfl, rfl, -⟩, -⟩ := run
  have found := (Names.counter_given w.names id).1
  rw [(counter_ok.1 counted).1] at found
  exact ⟨evolves.given.counters found, before, after, text⟩

/-- A `switch` on a number has the text of the discriminant as its subject. Any other keeps a
temporary with the node, and compares the text. -/
theorem selection_ok {id : NodeId} {discriminant : Expr} {select : Selection}
    (run : selection scope id discriminant σ w = (.ok select, w')) :
    ∃ text asked, expr (exprText · discriminant) σ w = (.ok text, asked) ∧
      (((σ.types discriminant.id).getD .unknown).isNumber = true ∧ select = .value text ∨
        ¬ ((σ.types discriminant.id).getD .unknown).isNumber = true ∧
          ∃ subject, select = .index subject text ∧
            w'.names.temporaries.lookup (id, "tmp_switch") = some subject) := by
  rw [selection, read_bind] at run
  simp only [bind_ok] at run
  obtain ⟨text, asked, head, run⟩ := run
  refine ⟨text, asked, head, ?_⟩
  split at run
  next isNumber =>
    obtain ⟨rfl, -⟩ := pure_ok.1 run
    exact .inl ⟨isNumber, rfl⟩
  next notNumber =>
    simp only [bind_ok, pure_ok] at run
    obtain ⟨name, middle, named, _, declared, declares, _, needed, needs, rfl, rfl⟩ := run
    have found := (Names.temporary_given asked.names id "tmp_switch").1
    rw [(temporary_ok.1 named).1] at found
    have kept := (expr_ok needs).2.trans (declare_ok.1 declares).2.1
    rw [← kept] at found
    exact .inr ⟨notNumber, name, rfl, found⟩

end Emit

end ScriptToC
