import ScriptToC.Proofs.Emission.Run

/-!
# Rules of emission

Emitting a statement that succeeds is a derivation: the C form of a statement comes from the C forms
of its parts, each emitted in its own scope from the workspace that the part before it left. The
rules also keep what a run does not return: the locals that a statement introduces in the scope
where it stands, in the order of their introduction.

Every run that succeeds has a derivation (`emits_of_run`), and what is derived is what the run gives
(`Emits.run`). Properties of what is emitted are proved by induction on the derivation.
-/

set_option autoImplicit false

namespace ScriptToC.Emit

open Ir

variable {σ : Setting}

/-! ## Introduced locals -/

/-- The locals that a declaration introduces. -/
def declaredLocals (types : Types) (declarators : List Declarator) : List Variable :=
  declarators.map fun declarator => ⟨declarator.name, (types declarator.node.id).getD .unknown⟩

/-- The locals that the start of a `for` loop introduces. -/
def startLocals (types : Types) : Option ForInit → List Variable
  | some (.declare declarators) => declaredLocals types declarators
  | _ => []

/-- The local that a loop over a collection binds. -/
def bindingLocals (types : Types) : ForBinding → List Variable
  | .declare declarator => declaredLocals types [declarator]
  | .target _ => []

/-- The temporary that a `switch` keeps its index in. -/
def Selection.locals : Selection → List Variable
  | .value _ => []
  | .index subject _ => [⟨subject, .number⟩]

/-! ## Rules -/

mutual

/-- In a scope, a statement becomes a C statement and introduces some locals. -/
inductive Emits (σ : Setting) :
    ScopeId → Stmt → Workspace → CStmt → List Variable → Workspace → Prop
  | breakStmt (scope : ScopeId) (node : Node) (w : Workspace) :
      Emits σ scope (.breakStmt node) w .breakStmt [] w
  | continueStmt (scope : ScopeId) (node : Node) (w : Workspace) :
      Emits σ scope (.continueStmt node) w .continueStmt [] w
  | emptyStmt (scope : ScopeId) (node : Node) (w : Workspace) :
      Emits σ scope (.emptyStmt node) w .emptyStmt [] w
  | returnStmt {scope : ScopeId} {node : Node} {value : Option Expr} {w w' : Workspace} {c : CStmt}
      (run : returned scope value σ w = (.ok c, w')) :
      Emits σ scope (.returnStmt node value) w c [] w'
  | ifThen {scope : ScopeId} {node : Node} {test : Expr} {braces : Option Node}
      {body : List Stmt} {w w₁ w' : Workspace} {text : String} {b : Block CStmt}
      (head : expr (condition · test) σ w = (.ok text, w₁))
      (yes : EmitsBlock σ scope body w₁ b w') :
      Emits σ scope (.ifThen node test ⟨braces, body⟩) w (.ifThen text b) [] w'
  | ifElse {scope : ScopeId} {node : Node} {test : Expr} {braces braces' : Option Node}
      {body otherwise : List Stmt} {w w₁ w₂ w' : Workspace} {text : String} {b b' : Block CStmt}
      (head : expr (condition · test) σ w = (.ok text, w₁)) (yes : EmitsBlock σ scope body w₁ b w₂)
      (no : EmitsBlock σ scope otherwise w₂ b' w') :
      Emits σ scope (.ifElse node test ⟨braces, body⟩ ⟨braces', otherwise⟩) w
        (.ifElse text { b with forceBraces := Stmt.bodyEndsInOpenIf body } b') [] w'
  | switchOn {scope : ScopeId} {node : Node} {discriminant : Expr} {list : List (Clause Stmt)}
      {w w₁ w' : Workspace} {select : Selection} {comparisons : List String} {cases : List CStmt}
      {xs : List Variable}
      (head : selection scope node.id discriminant σ w = (.ok select, w₁))
      (each : EmitsClauses σ scope select 0 list w₁ comparisons cases xs w') :
      Emits σ scope (.switchOn node discriminant list) w (select.switch comparisons cases)
        (select.locals ++ xs) w'
  | whileLoop {scope : ScopeId} {node : Node} {test : Expr} {braces : Option Node}
      {body : List Stmt} {w w₁ w' : Workspace} {text : String} {b : Block CStmt}
      (head : expr (condition · test) σ w = (.ok text, w₁))
      (loop : EmitsBlock σ scope body w₁ b w') :
      Emits σ scope (.whileLoop node test ⟨braces, body⟩) w (.whileLoop text b) [] w'
  | doLoop {scope : ScopeId} {node : Node} {test : Expr} {braces : Option Node}
      {body : List Stmt} {w w₁ w' : Workspace} {text : String} {b : Block CStmt}
      (loop : EmitsBlock σ scope body w b w₁)
      (last : expr (condition · test) σ w₁ = (.ok text, w')) :
      Emits σ scope (.doLoop node ⟨braces, body⟩ test) w (.doLoop b text) [] w'
  | forLoop {scope : ScopeId} {node : Node} {init : Option ForInit} {test update : Option Expr}
      {braces : Option Node} {body : List Stmt} {w w₁ w₂ w₃ w' : Workspace}
      {declared : Option (List Assignment)} {first : String} {test' update' : Option String}
      {b : Block CStmt}
      (start : loopStart scope init σ w = (.ok (declared, first), w₁))
      (head : test.mapM (fun e => expr (condition · e)) σ w₁ = (.ok test', w₂))
      (step : update.mapM (fun e => expr (exprText · e)) σ w₂ = (.ok update', w₃))
      (loop : EmitsBlock σ scope body w₃ b w') :
      Emits σ scope (.forLoop node init test update ⟨braces, body⟩) w
        (.forLoop declared first (test'.getD "") (update'.getD "") b) (startLocals σ.types init) w'
  | forOf {scope : ScopeId} {node : Node} {left : ForBinding} {right : Expr} {body : Stmt}
      {element : CType} {capacity : Nat} {dynamic : Bool} {w w₁ w' : Workspace}
      {index array target : String} {cs : List CStmt} {xs : List Variable}
      (known : σ.types right.node.id = some (.array element capacity dynamic))
      (head : loopHead scope node.id left right σ w = (.ok (index, array, target), w₁))
      (loop : EmitsHoisted σ scope [body] w₁ cs xs w') :
      Emits σ scope (.forOf node left right body) w
        (if dynamic then
          .forDynamic index array (if element.isDynamicArray then "(void *)" else "") target cs
        else
          .forFixed index capacity array (if element.isDynamicArray then "(void *)" else "")
            target cs)
        (⟨index, .number⟩ :: bindingLocals σ.types left ++ xs) w'
  | forIn {scope : ScopeId} {node : Node} {left : ForBinding} {right : Expr}
      {braces : Option Node} {body : List Stmt} {type : CType} {w w₁ w' : Workspace}
      {index dict target : String} {cs : List CStmt} {xs : List Variable}
      (known : σ.types right.node.id = some type) (isDict : type.isDict = true)
      (head : loopHead scope node.id left right σ w = (.ok (index, dict, target), w₁))
      (loop : EmitsHoisted σ scope body w₁ cs xs w') :
      Emits σ scope (.forIn node left right ⟨braces, body⟩) w (.forKeys index dict target cs)
        (⟨index, .number⟩ :: bindingLocals σ.types left ++ xs) w'
  | expression {scope : ScopeId} {node : Node} {e : Expr} {w w' : Workspace} {a : Assignment}
      (run : expressionStatement e σ w = (.ok a, w')) :
      Emits σ scope (.expression node e) w (.expression a) [] w'
  | block {scope : ScopeId} {node : Node} {body : List Stmt} {w w' : Workspace} {b : Block CStmt}
      (inner : EmitsBlock σ scope body w b w') :
      Emits σ scope (.block node body) w (.block b) [] w'
  | importFrom {scope : ScopeId} {node : Node} {path : String} {w w' : Workspace}
      (run : importHeader path σ w = (.ok (), w')) :
      Emits σ scope (.importFrom node path) w .importStmt [] w'
  | declaration {scope : ScopeId} {node : Node} {declarators : List Declarator} {w w' : Workspace}
      {list : List Assignment} (run : declarations scope declarators σ w = (.ok list, w')) :
      Emits σ scope (.declaration node declarators) w (.declaration list)
        (declaredLocals σ.types declarators) w'

/-- Statements in a row. -/
inductive EmitsAll (σ : Setting) :
    ScopeId → List Stmt → Workspace → List CStmt → List Variable → Workspace → Prop
  | nil (scope : ScopeId) (w : Workspace) : EmitsAll σ scope [] w [] [] w
  | cons {scope : ScopeId} {s : Stmt} {rest : List Stmt} {w w₁ w' : Workspace} {c : CStmt}
      {cs : List CStmt} {xs ys : List Variable}
      (first : Emits σ scope s w c xs w₁) (others : EmitsAll σ scope rest w₁ cs ys w') :
      EmitsAll σ scope (s :: rest) w (c :: cs) (xs ++ ys) w'

/-- A body in a new scope, which keeps its locals. -/
inductive EmitsBlock (σ : Setting) :
    ScopeId → List Stmt → Workspace → Block CStmt → Workspace → Prop
  | intro {scope inner : ScopeId} {body : List Stmt} {w w₁ w' : Workspace} {cs : List CStmt}
      {xs locals : List Variable}
      (opened : newChild scope σ w = (.ok inner, w₁)) (all : EmitsAll σ inner body w₁ cs xs w')
      (kept : localsOf inner σ w' = (.ok locals, w')) :
      EmitsBlock σ scope body w ⟨locals, cs, false⟩ w'

/-- A body in a new scope, whose locals move to the scope around it. -/
inductive EmitsHoisted (σ : Setting) :
    ScopeId → List Stmt → Workspace → List CStmt → List Variable → Workspace → Prop
  | intro {scope inner : ScopeId} {body : List Stmt} {w w₁ w₂ w' : Workspace} {cs : List CStmt}
      {xs : List Variable}
      (opened : newChild scope σ w = (.ok inner, w₁)) (all : EmitsAll σ inner body w₁ cs xs w₂)
      (moved : hoist inner scope σ w₂ = (.ok (), w')) :
      EmitsHoisted σ scope body w cs xs w'

/-- The clauses of a `switch`, of which the first has the given index. -/
inductive EmitsClauses (σ : Setting) :
    ScopeId → Selection → Nat → List (Clause Stmt) → Workspace → List String → List CStmt →
      List Variable → Workspace → Prop
  | nil (scope : ScopeId) (select : Selection) (index : Nat) (w : Workspace) :
      EmitsClauses σ scope select index [] w [] [] [] w
  | cons {scope : ScopeId} {select : Selection} {index : Nat} {test : Option Expr}
      {body : List Stmt} {rest : List (Clause Stmt)} {w w₁ w₂ w' : Workspace}
      {found : Option (String × List String)} {cs cases : List CStmt} {comparisons : List String}
      {xs ys : List Variable}
      (head : test.mapM (label select index) σ w = (.ok found, w₁))
      (first : EmitsHoisted σ scope body w₁ cs xs w₂)
      (others : EmitsClauses σ scope select (index + 1) rest w₂ comparisons cases ys w') :
      EmitsClauses σ scope select index (⟨test, body⟩ :: rest) w
        (found.elim [] (·.2) ++ comparisons) (.clause (found.map (·.1)) cs :: cases) (xs ++ ys) w'

end

/-! ## Runs and derivations -/

section Runs

variable {scope : ScopeId} {before after : Workspace}

theorem block_ok {body : ScopeId → EmitM (List CStmt)} {b : Block CStmt} :
    block scope body σ before = (.ok b, after) ↔
      ∃ inner opened cs locals, newChild scope σ before = (.ok inner, opened) ∧
        body inner σ opened = (.ok cs, after) ∧ localsOf inner σ after = (.ok locals, after) ∧
        ⟨locals, cs, false⟩ = b := by
  simp only [block, bind_ok, pure_ok]
  constructor
  · rintro ⟨inner, opened, made, cs, closed, all, locals, _, kept, rfl, rfl⟩
    obtain ⟨found, rfl⟩ := localsOf_ok.1 kept
    exact ⟨inner, opened, cs, locals, made, all, localsOf_ok.2 ⟨found, rfl⟩, rfl⟩
  · rintro ⟨inner, opened, cs, locals, made, all, kept, rfl⟩
    exact ⟨inner, opened, made, cs, after, all, locals, after, kept, rfl, rfl⟩

theorem hoisted_ok {body : ScopeId → EmitM (List CStmt)} {cs : List CStmt} :
    hoisted scope body σ before = (.ok cs, after) ↔
      ∃ inner opened closed, newChild scope σ before = (.ok inner, opened) ∧
        body inner σ opened = (.ok cs, closed) ∧ hoist inner scope σ closed = (.ok (), after) := by
  simp only [hoisted, bind_ok, pure_ok]
  constructor
  · rintro ⟨inner, opened, made, _, closed, all, _, _, moved, rfl, rfl⟩
    exact ⟨inner, opened, closed, made, all, moved⟩
  · rintro ⟨inner, opened, closed, made, all, moved⟩
    exact ⟨inner, opened, made, cs, closed, all, (), after, moved, rfl, rfl⟩

/-- One statement alone is emitted as a row of one. -/
theorem hoisted_singleton (scope : ScopeId) (s : Stmt) :
    hoisted scope (fun inner => do return [← stmt inner s]) =
      hoisted scope fun inner => stmts inner [s] := by
  simp [stmts]

end Runs

mutual

/-- A run that succeeds has a derivation. -/
theorem emits_of_run : ∀ (s : Stmt) {scope : ScopeId} {w w' : Workspace} {c : CStmt},
    stmt scope s σ w = (.ok c, w') → ∃ xs, Emits σ scope s w c xs w'
  | .breakStmt node, scope, w, w', c, run => by
      rw [stmt, pure_ok] at run
      obtain ⟨rfl, rfl⟩ := run
      exact ⟨_, .breakStmt scope node w⟩
  | .continueStmt node, scope, w, w', c, run => by
      rw [stmt, pure_ok] at run
      obtain ⟨rfl, rfl⟩ := run
      exact ⟨_, .continueStmt scope node w⟩
  | .emptyStmt node, scope, w, w', c, run => by
      rw [stmt, pure_ok] at run
      obtain ⟨rfl, rfl⟩ := run
      exact ⟨_, .emptyStmt scope node w⟩
  | .returnStmt _ _, _, _, _, _, run => by
      rw [stmt] at run
      exact ⟨_, .returnStmt run⟩
  | .ifThen _ _ ⟨_, body⟩, _, _, _, _, run => by
      simp only [stmt, bind_ok, pure_ok] at run
      obtain ⟨_, _, head, _, _, yes, rfl, rfl⟩ := run
      exact ⟨_, .ifThen head (emitsBlock_of_run body yes)⟩
  | .ifElse _ _ ⟨_, body⟩ ⟨_, otherwise⟩, _, _, _, _, run => by
      simp only [stmt, bind_ok, pure_ok] at run
      obtain ⟨_, _, head, _, _, yes, _, _, no, rfl, rfl⟩ := run
      exact ⟨_, .ifElse head (emitsBlock_of_run body yes) (emitsBlock_of_run otherwise no)⟩
  | .switchOn _ _ list, _, _, _, _, run => by
      simp only [stmt, bind_ok, pure_ok] at run
      obtain ⟨_, _, head, ⟨_, _⟩, _, each, rfl, rfl⟩ := run
      obtain ⟨_, each⟩ := emitsClauses_of_run list each
      exact ⟨_, .switchOn head each⟩
  | .whileLoop _ _ ⟨_, body⟩, _, _, _, _, run => by
      simp only [stmt, bind_ok, pure_ok] at run
      obtain ⟨_, _, head, _, _, loop, rfl, rfl⟩ := run
      exact ⟨_, .whileLoop head (emitsBlock_of_run body loop)⟩
  | .doLoop _ ⟨_, body⟩ _, _, _, _, _, run => by
      simp only [stmt, bind_ok, pure_ok] at run
      obtain ⟨_, _, loop, _, _, last, rfl, rfl⟩ := run
      exact ⟨_, .doLoop (emitsBlock_of_run body loop) last⟩
  | .forLoop _ _ _ _ ⟨_, body⟩, _, _, _, _, run => by
      simp only [stmt, bind_ok, pure_ok] at run
      obtain ⟨⟨_, _⟩, _, start, _, _, head, _, _, step, _, _, loop, rfl, rfl⟩ := run
      exact ⟨_, .forLoop start head step (emitsBlock_of_run body loop)⟩
  | .forOf _ _ _ body, _, _, _, _, run => by
      rw [stmt, bind_ok] at run
      obtain ⟨type, _, asked, run⟩ := run
      obtain ⟨known, rfl⟩ := typeOfNode_ok.1 asked
      cases type with
      | array element capacity dynamic =>
          simp only [bind_ok] at run
          obtain ⟨⟨_, _, _⟩, _, head, _, _, loop, run⟩ := run
          obtain ⟨_, loop⟩ := emitsLoop_of_run body loop
          cases dynamic with
          | true =>
              obtain ⟨rfl, rfl⟩ := pure_ok.1 run
              exact ⟨_, .forOf known head loop⟩
          | false =>
              obtain ⟨rfl, rfl⟩ := pure_ok.1 run
              exact ⟨_, .forOf known head loop⟩
      | _ => exact absurd run throw_ok
  | .forIn _ _ _ ⟨_, body⟩, _, _, _, _, run => by
      rw [stmt, bind_ok] at run
      obtain ⟨type, _, asked, run⟩ := run
      obtain ⟨known, rfl⟩ := typeOfNode_ok.1 asked
      split at run
      next isDict =>
        simp only [bind_ok, pure_ok] at run
        obtain ⟨⟨_, _, _⟩, _, head, _, _, loop, rfl, rfl⟩ := run
        obtain ⟨_, loop⟩ := emitsHoisted_of_run body loop
        exact ⟨_, .forIn known isDict head loop⟩
      next => exact absurd run throw_ok
  | .expression _ _, _, _, _, _, run => by
      simp only [stmt, bind_ok, pure_ok] at run
      obtain ⟨_, _, run, rfl, rfl⟩ := run
      exact ⟨_, .expression run⟩
  | .block _ body, _, _, _, _, run => by
      simp only [stmt, bind_ok, pure_ok] at run
      obtain ⟨_, _, inner, rfl, rfl⟩ := run
      exact ⟨_, .block (emitsBlock_of_run body inner)⟩
  | .importFrom _ _, _, _, _, _, run => by
      simp only [stmt, bind_ok, pure_ok] at run
      obtain ⟨_, _, run, rfl, rfl⟩ := run
      exact ⟨_, .importFrom run⟩
  | .declaration _ _, _, _, _, _, run => by
      simp only [stmt, bind_ok, pure_ok] at run
      obtain ⟨_, _, run, rfl, rfl⟩ := run
      exact ⟨_, .declaration run⟩

theorem emitsAll_of_run : ∀ (body : List Stmt) {scope : ScopeId} {w w' : Workspace}
    {cs : List CStmt}, stmts scope body σ w = (.ok cs, w') → ∃ xs, EmitsAll σ scope body w cs xs w'
  | [], scope, w, w', cs, run => by
      rw [stmts, pure_ok] at run
      obtain ⟨rfl, rfl⟩ := run
      exact ⟨_, .nil scope w⟩
  | s :: rest, _, _, _, _, run => by
      simp only [stmts, bind_ok, pure_ok] at run
      obtain ⟨_, _, first, _, _, others, rfl, rfl⟩ := run
      obtain ⟨_, first⟩ := emits_of_run s first
      obtain ⟨_, others⟩ := emitsAll_of_run rest others
      exact ⟨_, .cons first others⟩

theorem emitsBlock_of_run (body : List Stmt) {scope : ScopeId} {w w' : Workspace}
    {b : Block CStmt} (run : block scope (fun inner => stmts inner body) σ w = (.ok b, w')) :
    EmitsBlock σ scope body w b w' := by
  obtain ⟨_, _, _, _, opened, all, kept, rfl⟩ := block_ok.1 run
  obtain ⟨_, all⟩ := emitsAll_of_run body all
  exact .intro opened all kept

theorem emitsHoisted_of_run (body : List Stmt) {scope : ScopeId} {w w' : Workspace}
    {cs : List CStmt} (run : hoisted scope (fun inner => stmts inner body) σ w = (.ok cs, w')) :
    ∃ xs, EmitsHoisted σ scope body w cs xs w' := by
  obtain ⟨_, _, _, opened, all, moved⟩ := hoisted_ok.1 run
  obtain ⟨_, all⟩ := emitsAll_of_run body all
  exact ⟨_, .intro opened all moved⟩

theorem emitsLoop_of_run (body : Stmt) {scope : ScopeId} {w w' : Workspace} {cs : List CStmt}
    (run : hoisted scope (fun inner => do return [← stmt inner body]) σ w = (.ok cs, w')) :
    ∃ xs, EmitsHoisted σ scope [body] w cs xs w' := by
  obtain ⟨inner, _, _, opened, all, moved⟩ := hoisted_ok.1 run
  obtain ⟨_, _, first, rfl, rfl⟩ : ∃ c middle, stmt inner body σ _ = (.ok c, middle) ∧ _ := by
    simpa only [bind_ok, pure_ok] using all
  obtain ⟨_, first⟩ := emits_of_run body first
  exact ⟨_, .intro opened (.cons first (.nil inner _)) moved⟩

theorem emitsClauses_of_run : ∀ (list : List (Clause Stmt)) {scope : ScopeId} {select : Selection}
    {index : Nat} {w w' : Workspace} {comparisons : List String} {cases : List CStmt},
    clauses scope select index list σ w = (.ok (comparisons, cases), w') →
      ∃ xs, EmitsClauses σ scope select index list w comparisons cases xs w'
  | [], scope, select, index, w, w', comparisons, cases, run => by
      rw [clauses, pure_ok] at run
      obtain ⟨⟨⟩, rfl⟩ := run
      exact ⟨_, .nil scope select index w⟩
  | ⟨_, body⟩ :: rest, _, _, _, _, _, _, _, run => by
      simp only [clauses, bind_ok, pure_ok, Prod.mk.injEq] at run
      obtain ⟨_, _, head, _, _, first, ⟨_, _⟩, _, others, ⟨rfl, rfl⟩, rfl⟩ := run
      obtain ⟨_, first⟩ := emitsHoisted_of_run body first
      obtain ⟨_, others⟩ := emitsClauses_of_run rest others
      exact ⟨_, .cons head first others⟩

end

mutual

/-- What is derived is what the run gives. -/
theorem Emits.run : ∀ {scope : ScopeId} {s : Stmt} {w w' : Workspace} {c : CStmt}
    {xs : List Variable}, Emits σ scope s w c xs w' → stmt scope s σ w = (.ok c, w')
  | _, _, _, _, _, _, .breakStmt .. => by rw [stmt, pure_ok]; exact ⟨rfl, rfl⟩
  | _, _, _, _, _, _, .continueStmt .. => by rw [stmt, pure_ok]; exact ⟨rfl, rfl⟩
  | _, _, _, _, _, _, .emptyStmt .. => by rw [stmt, pure_ok]; exact ⟨rfl, rfl⟩
  | _, _, _, _, _, _, .returnStmt run => by rw [stmt]; exact run
  | _, _, _, _, _, _, .ifThen head yes => by
      simp only [stmt, bind_ok, pure_ok]
      exact ⟨_, _, head, _, _, yes.run, rfl, rfl⟩
  | _, _, _, _, _, _, .ifElse head yes no => by
      simp only [stmt, bind_ok, pure_ok]
      exact ⟨_, _, head, _, _, yes.run, _, _, no.run, rfl, rfl⟩
  | _, _, _, _, _, _, .switchOn head each => by
      simp only [stmt, bind_ok, pure_ok]
      exact ⟨_, _, head, (_, _), _, each.run, rfl, rfl⟩
  | _, _, _, _, _, _, .whileLoop head loop => by
      simp only [stmt, bind_ok, pure_ok]
      exact ⟨_, _, head, _, _, loop.run, rfl, rfl⟩
  | _, _, _, _, _, _, .doLoop loop last => by
      simp only [stmt, bind_ok, pure_ok]
      exact ⟨_, _, loop.run, _, _, last, rfl, rfl⟩
  | _, _, _, _, _, _, .forLoop start head step loop => by
      simp only [stmt, bind_ok, pure_ok]
      exact ⟨(_, _), _, start, _, _, head, _, _, step, _, _, loop.run, rfl, rfl⟩
  | _, _, _, _, _, _, .forOf known head loop => by
      rw [stmt, bind_ok]
      refine ⟨_, _, typeOfNode_ok.2 ⟨known, rfl⟩, ?_⟩
      simp only [bind_ok, hoisted_singleton]
      refine ⟨(_, _, _), _, head, _, _, loop.run, ?_⟩
      split <;> exact pure_ok.2 ⟨rfl, rfl⟩
  | _, _, _, _, _, _, .forIn known isDict head loop => by
      rw [stmt, bind_ok]
      refine ⟨_, _, typeOfNode_ok.2 ⟨known, rfl⟩, ?_⟩
      rw [if_pos isDict]
      simp only [bind_ok, pure_ok]
      exact ⟨(_, _, _), _, head, _, _, loop.run, rfl, rfl⟩
  | _, _, _, _, _, _, .expression run => by
      simp only [stmt, bind_ok, pure_ok]
      exact ⟨_, _, run, rfl, rfl⟩
  | _, _, _, _, _, _, .block inner => by
      simp only [stmt, bind_ok, pure_ok]
      exact ⟨_, _, inner.run, rfl, rfl⟩
  | _, _, _, _, _, _, .importFrom run => by
      simp only [stmt, bind_ok, pure_ok]
      exact ⟨(), _, run, trivial, rfl⟩
  | _, _, _, _, _, _, .declaration run => by
      simp only [stmt, bind_ok, pure_ok]
      exact ⟨_, _, run, rfl, rfl⟩

theorem EmitsAll.run : ∀ {scope : ScopeId} {body : List Stmt} {w w' : Workspace}
    {cs : List CStmt} {xs : List Variable}, EmitsAll σ scope body w cs xs w' →
      stmts scope body σ w = (.ok cs, w')
  | _, _, _, _, _, _, .nil .. => by rw [stmts, pure_ok]; exact ⟨rfl, rfl⟩
  | _, _, _, _, _, _, .cons first others => by
      simp only [stmts, bind_ok, pure_ok]
      exact ⟨_, _, first.run, _, _, others.run, rfl, rfl⟩

theorem EmitsBlock.run : ∀ {scope : ScopeId} {body : List Stmt} {w w' : Workspace}
    {b : Block CStmt}, EmitsBlock σ scope body w b w' →
      block scope (fun inner => stmts inner body) σ w = (.ok b, w')
  | _, _, _, _, _, .intro opened all kept =>
      block_ok.2 ⟨_, _, _, _, opened, all.run, kept, rfl⟩

theorem EmitsHoisted.run : ∀ {scope : ScopeId} {body : List Stmt} {w w' : Workspace}
    {cs : List CStmt} {xs : List Variable}, EmitsHoisted σ scope body w cs xs w' →
      hoisted scope (fun inner => stmts inner body) σ w = (.ok cs, w')
  | _, _, _, _, _, _, .intro opened all moved => hoisted_ok.2 ⟨_, _, _, opened, all.run, moved⟩

theorem EmitsClauses.run : ∀ {scope : ScopeId} {select : Selection} {index : Nat}
    {list : List (Clause Stmt)} {w w' : Workspace} {comparisons : List String}
    {cases : List CStmt} {xs : List Variable},
    EmitsClauses σ scope select index list w comparisons cases xs w' →
      clauses scope select index list σ w = (.ok (comparisons, cases), w')
  | _, _, _, _, _, _, _, _, _, .nil .. => by rw [clauses, pure_ok]; exact ⟨rfl, rfl⟩
  | _, _, _, _, _, _, _, _, _, .cons head first others => by
      simp only [clauses, bind_ok, pure_ok]
      exact ⟨_, _, head, _, _, first.run, (_, _), _, others.run, rfl, rfl⟩

end

end ScriptToC.Emit
