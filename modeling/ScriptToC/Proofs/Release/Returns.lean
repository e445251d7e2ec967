import ScriptToC.Proofs.Hoisting.Places
import ScriptToC.Proofs.Release.Layers

/-!
# What each return releases

The plan of a `return` can be read off the source: it releases the owned locals that have been
introduced so far in the scopes around it, from the inside out. `Stmt.plans` lists the returns of a
statement with their plans, and these are the returns of its C form with their releases
(`Emits.returns_eq`). A branch that was not taken, a loop that did not run and a clause that was not
selected count as much as what was executed.
-/

set_option autoImplicit false

namespace ScriptToC

open Ir ScopeTree

/-- A `return`: the place of its row, its index there, and what it releases. -/
structure Returning where
  place : Place
  index : Nat
  releases : List Release

/-- A `return` in a part, seen from outside the part. -/
def Returning.enter (step : Nat × Nat) (returning : Returning) : Returning :=
  { returning with place := step :: returning.place }

/-! ## In C -/

mutual

/-- The returns of the C statement with a given index. -/
def CStmt.returns (index : Nat) : CStmt → List Returning
  | .returnStmt _ releases => [⟨[], index, releases⟩]
  | .ifThen _ body | .whileLoop _ body | .doLoop body _ | .forLoop _ _ _ _ body | .block body =>
    (blockReturns body).map (.enter (index, 0))
  | .ifElse _ body otherwise =>
    (blockReturns body).map (.enter (index, 0)) ++ (blockReturns otherwise).map (.enter (index, 1))
  | .switchOn _ statements | .switchByIndex _ _ statements | .clause _ statements
  | .forFixed _ _ _ _ _ statements | .forDynamic _ _ _ _ statements | .forKeys _ _ _ statements =>
    (listReturns 0 statements).map (.enter (index, 0))
  | .breakStmt | .continueStmt | .emptyStmt | .expression _ | .importStmt | .declaration _ => []

/-- The returns of a block. -/
def blockReturns : Block CStmt → List Returning
  | ⟨_, statements, _⟩ => listReturns 0 statements

/-- The returns of C statements in a row, the first of which has the given index. -/
def listReturns (index : Nat) : List CStmt → List Returning
  | [] => []
  | first :: rest => first.returns index ++ listReturns (index + 1) rest

end

/-- The returns of a function. -/
def CFunction.returns (function : CFunction) : List Returning :=
  listReturns 0 function.statements

/-! ## In the source -/

namespace Ir

section Plans

variable (types : Types) (names : Names)

mutual

/-- The locals that a statement introduces in the scope where it stands. -/
def Stmt.locals : Stmt → List Variable
  | .switchOn node discriminant clauses =>
    switchLocals types names node.id discriminant ++ clauseLocals clauses
  | .forLoop _ init _ _ _ => Emit.startLocals types init
  | .forOf node left _ body => loopLocals types names node.id left ++ body.locals
  | .forIn node left _ ⟨_, body⟩ => loopLocals types names node.id left ++ rowLocals body
  | .declaration _ declarators => Emit.declaredLocals types declarators
  | .breakStmt _ | .continueStmt _ | .emptyStmt _ | .returnStmt _ _ | .ifThen _ _ _
  | .ifElse _ _ _ _ | .whileLoop _ _ _ | .doLoop _ _ _ | .expression _ _ | .block _ _
  | .importFrom _ _ => []

/-- The locals that statements in a row introduce in their scope. -/
def rowLocals : List Stmt → List Variable
  | [] => []
  | first :: rest => first.locals ++ rowLocals rest

/-- The locals of the clauses of a `switch`. -/
def clauseLocals : List (Clause Stmt) → List Variable
  | [] => []
  | ⟨_, body⟩ :: rest => rowLocals body ++ clauseLocals rest

end

mutual

/-- The returns of the statement with a given index, in a scope that has the locals `own` so far,
with the layers `around`. -/
def Stmt.plans (own : List Variable) (around : List (List Variable)) (index : Nat) :
    Stmt → List Returning
  | .returnStmt _ value => [⟨[], index, planned (own :: around) (value.bind Expr.ident?)⟩]
  | .ifThen _ _ ⟨_, body⟩ | .whileLoop _ _ ⟨_, body⟩ | .doLoop _ ⟨_, body⟩ _ | .block _ body =>
    (rowPlans [] (own :: around) 0 body).map (.enter (index, 0))
  | .ifElse _ _ ⟨_, body⟩ ⟨_, otherwise⟩ =>
    (rowPlans [] (own :: around) 0 body).map (.enter (index, 0)) ++
      (rowPlans [] (own :: around) 0 otherwise).map (.enter (index, 1))
  | .forLoop _ init _ _ ⟨_, body⟩ =>
    let own := introduce own (Emit.startLocals types init)
    (rowPlans [] (own :: around) 0 body).map (.enter (index, 0))
  | .forOf node left _ body =>
    let own := introduce own (loopLocals types names node.id left)
    (body.plans [] (own :: around) 0).map (.enter (index, 0))
  | .forIn node left _ ⟨_, body⟩ =>
    let own := introduce own (loopLocals types names node.id left)
    (rowPlans [] (own :: around) 0 body).map (.enter (index, 0))
  | .switchOn node discriminant clauses =>
    let own := introduce own (switchLocals types names node.id discriminant)
    (clausePlans own around 0 clauses).map (.enter (index, 0))
  | .breakStmt _ | .continueStmt _ | .emptyStmt _ | .expression _ _ | .importFrom _ _
  | .declaration _ _ => []

/-- The returns of statements in a row, the first of which has the given index. -/
def rowPlans (own : List Variable) (around : List (List Variable)) (index : Nat) :
    List Stmt → List Returning
  | [] => []
  | first :: rest =>
    first.plans own around index ++
      rowPlans (introduce own (first.locals types names)) around (index + 1) rest

/-- The returns of the clauses of a `switch`, the first of which has the given index. -/
def clausePlans (own : List Variable) (around : List (List Variable)) (index : Nat) :
    List (Clause Stmt) → List Returning
  | [] => []
  | ⟨_, body⟩ :: rest =>
    (rowPlans [] (own :: around) 0 body).map (.enter (index, 0)) ++
      clausePlans (introduce own (rowLocals types names body)) around (index + 1) rest

end

end Plans

end Ir

/-! ## Emission -/

namespace Emit

variable {σ : Setting} {names : Names}

mutual

/-- What a statement introduces is read off the source. -/
theorem Emits.locals_eq : ∀ {scope : ScopeId} {s : Stmt} {w w' : Workspace} {c : CStmt}
    {xs : List Variable}, Emits σ scope s w c xs w' → w'.names.Given names →
      xs = s.locals σ.types names
  | _, _, _, _, _, _, .breakStmt .., _ => rfl
  | _, _, _, _, _, _, .continueStmt .., _ => rfl
  | _, _, _, _, _, _, .emptyStmt .., _ => rfl
  | _, _, _, _, _, _, .returnStmt _, _ => rfl
  | _, _, _, _, _, _, .ifThen _ _, _ => rfl
  | _, _, _, _, _, _, .ifElse _ _ _, _ => rfl
  | _, _, _, _, _, _, .switchOn head each, given => by
      rw [Stmt.locals, switchLocals_eq head (each.evolves.given.trans given), each.locals_eq given]
  | _, _, _, _, _, _, .whileLoop _ _, _ => rfl
  | _, _, _, _, _, _, .doLoop _ _, _ => rfl
  | _, _, _, _, _, _, .forLoop _ _ _ _, _ => rfl
  | _, _, _, _, _, _, .forOf _ head loop, given => by
      rw [Stmt.locals, loopLocals_eq head (loop.evolves.given.trans given), loop.locals_eq given,
        rowLocals, rowLocals, List.append_nil]
  | _, _, _, _, _, _, .forIn _ _ head loop, given => by
      rw [Stmt.locals, loopLocals_eq head (loop.evolves.given.trans given), loop.locals_eq given]
  | _, _, _, _, _, _, .expression _, _ => rfl
  | _, _, _, _, _, _, .block _, _ => rfl
  | _, _, _, _, _, _, .importFrom _, _ => rfl
  | _, _, _, _, _, _, .declaration _, _ => rfl

theorem EmitsAll.locals_eq : ∀ {scope : ScopeId} {body : List Stmt} {w w' : Workspace}
    {cs : List CStmt} {xs : List Variable}, EmitsAll σ scope body w cs xs w' →
      w'.names.Given names → xs = rowLocals σ.types names body
  | _, _, _, _, _, _, .nil .., _ => rfl
  | _, _, _, _, _, _, .cons first others, given => by
      rw [rowLocals, first.locals_eq (others.evolves.given.trans given), others.locals_eq given]

theorem EmitsHoisted.locals_eq : ∀ {scope : ScopeId} {body : List Stmt} {w w' : Workspace}
    {cs : List CStmt} {xs : List Variable}, EmitsHoisted σ scope body w cs xs w' →
      w'.names.Given names → xs = rowLocals σ.types names body
  | _, _, _, _, _, _, .intro _ all moved, given => by
      obtain ⟨-, sameNames, -⟩ := hoist_ok.1 moved
      exact all.locals_eq (sameNames ▸ given)

theorem EmitsClauses.locals_eq : ∀ {scope : ScopeId} {select : Selection} {index : Nat}
    {list : List (Clause Stmt)} {w w' : Workspace} {comparisons : List String} {cases : List CStmt}
    {xs : List Variable}, EmitsClauses σ scope select index list w comparisons cases xs w' →
      w'.names.Given names → xs = clauseLocals σ.types names list
  | _, _, _, _, _, _, _, _, _, .nil .., _ => rfl
  | _, _, _, _, _, _, _, _, _, .cons _ first others, given => by
      rw [clauseLocals, first.locals_eq (others.evolves.given.trans given), others.locals_eq given]

end

theorem returns_switch (index : Nat) (select : Selection) (comparisons : List String)
    (cases : List CStmt) : (select.switch comparisons cases).returns index =
      (listReturns 0 cases).map (.enter (index, 0)) := by
  cases select <;> rfl

theorem returns_forOf (index : Nat) (dynamic : Bool) (counter array cast target : String)
    (capacity : Nat) (statements : List CStmt) :
    (if dynamic then CStmt.forDynamic counter array cast target statements
      else .forFixed counter capacity array cast target statements).returns index =
        (listReturns 0 statements).map (.enter (index, 0)) := by
  cases dynamic <;> rfl

theorem blockReturns_force (b : Block CStmt) (force : Bool) :
    blockReturns { b with forceBraces := force } = blockReturns b := by
  obtain ⟨_, _, _⟩ := b
  rfl

mutual

/-- **What each return releases.** The returns of the C form of a statement release what their plans
say. -/
theorem Emits.returns_eq : ∀ {scope : ScopeId} {s : Stmt} {w w' : Workspace} {c : CStmt}
    {xs : List Variable}, Emits σ scope s w c xs w' → ∀ {own : List Variable}
      {around : List (List Variable)} (index : Nat), w.scopes.Layered scope (own :: around) →
        w'.names.Given names → c.returns index = s.plans σ.types names own around index
  | _, _, _, _, _, _, .breakStmt .., _, _, _, _, _ => rfl
  | _, _, _, _, _, _, .continueStmt .., _, _, _, _, _ => rfl
  | _, _, _, _, _, _, .emptyStmt .., _, _, _, _, _ => rfl
  | _, _, _, _, _, _, .returnStmt run, _, _, _, shown, _ => by
      obtain ⟨_, _, rfl, -, plan, -⟩ := returned_ok run
      rw [shown.releases?_eq] at plan
      cases plan
      rfl
  | _, _, _, _, _, _, .ifThen head yes, _, _, index, shown, given => by
      rw [← (expr_ok head).1] at shown
      rw [CStmt.returns, Stmt.plans, yes.returns_eq shown given]
  | _, _, _, _, _, _, .ifElse head yes no, _, _, index, shown, given => by
      rw [← (expr_ok head).1] at shown
      have next := shown.same yes.evolves.scopes
        (yes.frame shown.isScope)
      rw [CStmt.returns, Stmt.plans, blockReturns_force,
        yes.returns_eq shown (no.evolves.given.trans given), no.returns_eq next given]
  | _, _, _, _, _, _, .switchOn head each, _, _, index, shown, given => by
      have next := shown.next ((evolving_selection _ _ _).evolves head).scopes
        (frame_selection head)
      rw [returns_switch, Stmt.plans, switchLocals_eq head (each.evolves.given.trans given),
        each.returns_eq 0 next given]
  | _, _, _, _, _, _, .whileLoop head loop, _, _, index, shown, given => by
      rw [← (expr_ok head).1] at shown
      rw [CStmt.returns, Stmt.plans, loop.returns_eq shown given]
  | _, _, _, _, _, _, .doLoop loop last, _, _, index, shown, given => by
      have evolves := (evolving_expr _).evolves last
      rw [CStmt.returns, Stmt.plans, loop.returns_eq shown (evolves.given.trans given)]
  | _, _, _, _, _, _, .forLoop start head step loop, _, _, index, shown, given => by
      have first := shown.next ((evolving_loopStart _ _).evolves start).scopes
        (frame_loopStart start)
      have second := first.same ((Evolving.mapM (fun _ => evolving_expr _) _).evolves head).scopes
        (frame_mapM head)
      have third := second.same ((Evolving.mapM (fun _ => evolving_expr _) _).evolves step).scopes
        (frame_mapM step)
      rw [CStmt.returns, Stmt.plans, loop.returns_eq third given]
  | _, _, _, _, _, _, .forOf _ head loop, _, _, index, shown, given => by
      have next := shown.next ((evolving_loopHead _ _ _ _).evolves head).scopes
        (frame_loopHead head)
      rw [returns_forOf, Stmt.plans, loopLocals_eq head (loop.evolves.given.trans given),
        loop.returns_eq next given, rowPlans, rowPlans, List.append_nil]
  | _, _, _, _, _, _, .forIn _ _ head loop, _, _, index, shown, given => by
      have next := shown.next ((evolving_loopHead _ _ _ _).evolves head).scopes
        (frame_loopHead head)
      rw [CStmt.returns, Stmt.plans, loopLocals_eq head (loop.evolves.given.trans given),
        loop.returns_eq next given]
  | _, _, _, _, _, _, .expression _, _, _, _, _, _ => rfl
  | _, _, _, _, _, _, .block inner, _, _, index, shown, given => by
      rw [CStmt.returns, Stmt.plans, inner.returns_eq shown given]
  | _, _, _, _, _, _, .importFrom _, _, _, _, _, _ => rfl
  | _, _, _, _, _, _, .declaration _, _, _, _, _, _ => rfl

theorem EmitsAll.returns_eq : ∀ {scope : ScopeId} {body : List Stmt} {w w' : Workspace}
    {cs : List CStmt} {xs : List Variable}, EmitsAll σ scope body w cs xs w' →
      ∀ {own : List Variable} {around : List (List Variable)} (index : Nat),
        w.scopes.Layered scope (own :: around) → w'.names.Given names →
          listReturns index cs = rowPlans σ.types names own around index body
  | _, _, _, _, _, _, .nil .., _, _, _, _, _ => rfl
  | _, _, _, _, _, _, .cons first others, _, _, index, shown, given => by
      have given' := others.evolves.given.trans given
      have next := shown.next first.evolves.scopes
        (first.frame shown.isScope)
      rw [listReturns, rowPlans, first.returns_eq index shown given', ← first.locals_eq given',
        others.returns_eq (index + 1) next given]

theorem EmitsBlock.returns_eq : ∀ {scope : ScopeId} {body : List Stmt} {w w' : Workspace}
    {b : Block CStmt}, EmitsBlock σ scope body w b w' → ∀ {layers : List (List Variable)},
      w.scopes.Layered scope layers → w'.names.Given names →
        blockReturns b = rowPlans σ.types names [] layers 0 body
  | _, _, _, _, _, .intro opened all _, _, shown, given => by
      rw [blockReturns, all.returns_eq 0 (layered_newChild shown opened) given]

theorem EmitsHoisted.returns_eq : ∀ {scope : ScopeId} {body : List Stmt} {w w' : Workspace}
    {cs : List CStmt} {xs : List Variable}, EmitsHoisted σ scope body w cs xs w' →
      ∀ {layers : List (List Variable)}, w.scopes.Layered scope layers → w'.names.Given names →
        listReturns 0 cs = rowPlans σ.types names [] layers 0 body
  | _, _, _, _, _, _, .intro opened all moved, _, shown, given => by
      obtain ⟨-, sameNames, -⟩ := hoist_ok.1 moved
      exact all.returns_eq 0 (layered_newChild shown opened) (sameNames ▸ given)

theorem EmitsClauses.returns_eq : ∀ {scope : ScopeId} {select : Selection} {number : Nat}
    {list : List (Clause Stmt)} {w w' : Workspace} {comparisons : List String} {cases : List CStmt}
    {xs : List Variable}, EmitsClauses σ scope select number list w comparisons cases xs w' →
      ∀ {own : List Variable} {around : List (List Variable)} (index : Nat),
        w.scopes.Layered scope (own :: around) → w'.names.Given names →
          listReturns index cases = clausePlans σ.types names own around index list
  | _, _, _, _, _, _, _, _, _, .nil .., _, _, _, _, _ => rfl
  | _, _, _, _, _, _, _, _, _, .cons head first others, _, _, index, shown, given => by
      have given' := others.evolves.given.trans given
      have labelled := (Evolving.mapM (fun _ => evolving_label _ _ _) _).evolves head
      have start := shown.same labelled.scopes (frame_label _ head)
      have next := start.next first.evolves.scopes
        (first.frame start.isScope)
      rw [listReturns, clausePlans, CStmt.returns, first.returns_eq start given',
        ← first.locals_eq given', others.returns_eq (index + 1) next given]

end

end Emit

end ScriptToC
