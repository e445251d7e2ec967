import ScriptToC.Proofs.Emission.Frame
import ScriptToC.Proofs.Hoisting.Introductions
import ScriptToC.Proofs.Ir.Parts
import ScriptToC.Proofs.Names.Distinct

/-!
# The names that emission invents

A loop over a collection asks for a counter, and a `switch` on anything but a number asks for a
temporary. Nothing else asks for a name, and each of these asks once: the invented names of what a
statement becomes are the answers to its requests, in order (`Emits.answered`). The nodes that ask
are statements of the module (`askedBy_stmt`).
-/

set_option autoImplicit false

namespace ScriptToC

open Ir
open Names (Request)

/-! ## Invented names -/

mutual

/-- The names in a C statement that no script wrote: the counters of loops over collections, and the
temporaries of `switch` statements. -/
def CStmt.invented : CStmt → List String
  | .ifThen _ body | .whileLoop _ body | .doLoop body _ | .forLoop _ _ _ _ body | .block body =>
    blockInvented body
  | .ifElse _ body otherwise => blockInvented body ++ blockInvented otherwise
  | .switchOn _ cases => listInvented cases
  | .switchByIndex subject _ cases => subject :: listInvented cases
  | .clause _ statements => listInvented statements
  | .forFixed counter _ _ _ _ statements | .forDynamic counter _ _ _ statements
  | .forKeys counter _ _ statements => counter :: listInvented statements
  | .breakStmt | .continueStmt | .emptyStmt | .returnStmt _ _ | .expression _ | .importStmt
  | .declaration _ => []

/-- The invented names in a block. -/
def blockInvented : Block CStmt → List String
  | ⟨_, statements, _⟩ => listInvented statements

/-- The invented names in statements in a row. -/
def listInvented : List CStmt → List String
  | [] => []
  | first :: rest => first.invented ++ listInvented rest

end

/-- The invented names in a file. -/
def CProgram.invented (program : CProgram) : List String :=
  (program.functions ++ [program.main]).flatMap fun f => listInvented f.statements

/-! ## Requests -/

namespace Ir

/-- A `switch` on anything but a number asks for a temporary. -/
def switchRequests (types : Types) (id : NodeId) (discriminant : Expr) : List Request :=
  if ((types discriminant.id).getD .unknown).isNumber then [] else [.temporary id "tmp_switch"]

mutual

/-- What a statement asks names for. -/
def Stmt.requests (types : Types) : Stmt → List Request
  | .ifThen _ _ ⟨_, body⟩ | .whileLoop _ _ ⟨_, body⟩ | .doLoop _ ⟨_, body⟩ _
  | .forLoop _ _ _ _ ⟨_, body⟩ | .block _ body => rowRequests types body
  | .ifElse _ _ ⟨_, body⟩ ⟨_, otherwise⟩ => rowRequests types body ++ rowRequests types otherwise
  | .switchOn node discriminant clauses =>
    switchRequests types node.id discriminant ++ clauseRequests types clauses
  | .forOf node _ _ body => .counter node.id :: body.requests types
  | .forIn node _ _ ⟨_, body⟩ => .counter node.id :: rowRequests types body
  | .breakStmt _ | .continueStmt _ | .emptyStmt _ | .returnStmt _ _ | .expression _ _
  | .importFrom _ _ | .declaration _ _ => []

/-- What statements in a row ask names for. -/
def rowRequests (types : Types) : List Stmt → List Request
  | [] => []
  | first :: rest => first.requests types ++ rowRequests types rest

/-- What the clauses of a `switch` ask names for. -/
def clauseRequests (types : Types) : List (Clause Stmt) → List Request
  | [] => []
  | ⟨_, body⟩ :: rest => rowRequests types body ++ clauseRequests types rest

end

/-- What a module asks names for. -/
def Module.requests (types : Types) (module : Module) : List Request :=
  module.bodies.flatMap (rowRequests types)

/-! ## Who asks -/

/-- The requests come from some of the parts, in their order. -/
def AskedBy (requests : List Request) (parts : List Part) : Prop :=
  List.Sublist (requests.map Request.id) (parts.map Part.id)

section AskedBy

variable {requests requests' : List Request} {parts parts' : List Part}

theorem askedBy_nil (parts : List Part) : AskedBy [] parts :=
  List.nil_sublist _

theorem AskedBy.append (asked : AskedBy requests parts) (asked' : AskedBy requests' parts') :
    AskedBy (requests ++ requests') (parts ++ parts') := by
  rw [AskedBy, List.map_append, List.map_append]
  exact List.Sublist.append asked asked'

/-- A part that asks for nothing. -/
theorem AskedBy.under (asked : AskedBy requests parts) (part : Part) :
    AskedBy requests (part :: parts) :=
  List.Sublist.cons _ asked

/-- A block that is a body asks for nothing. -/
theorem AskedBy.body {statements : List Stmt} (asked : AskedBy requests (rowParts statements))
    (braces : Option Node) : AskedBy requests (bodyParts ⟨braces, statements⟩) := by
  cases braces with
  | none => exact asked
  | some node => exact asked.under _

/-- A part that asks for one name. -/
theorem AskedBy.own (asked : AskedBy requests parts) {request : Request} {part : Part}
    (same : request.id = part.id) : AskedBy (request :: requests) (part :: parts) := by
  rw [AskedBy, List.map_cons, List.map_cons, same]
  exact List.Sublist.cons_cons _ asked

end AskedBy

mutual

/-- The nodes that ask are nodes of the statement. -/
theorem askedBy_stmt (types : Types) : ∀ s : Stmt, AskedBy (s.requests types) s.parts
  | .ifThen _ test ⟨braces, body⟩ | .whileLoop _ test ⟨braces, body⟩ =>
    ((askedBy_nil test.parts).append ((askedBy_row types body).body braces)).under _
  | .ifElse _ test ⟨braces, body⟩ ⟨braces', otherwise⟩ =>
    (((askedBy_nil test.parts).append ((askedBy_row types body).body braces)).append
      ((askedBy_row types otherwise).body braces')).under _
  | .doLoop _ ⟨braces, body⟩ test => by
      have asked := ((askedBy_row types body).body braces).append (askedBy_nil test.parts)
      rw [List.append_nil] at asked
      exact asked.under _
  | .forLoop _ init test update ⟨braces, body⟩ =>
    ((askedBy_nil (startParts init ++ partsOf test ++ partsOf update)).append
      ((askedBy_row types body).body braces)).under _
  | .switchOn node discriminant clauses => by
      have asked := (askedBy_nil discriminant.parts).append (askedBy_clauses types clauses)
      rw [Stmt.requests, Stmt.parts, switchRequests]
      split
      · exact asked.under _
      · exact asked.own rfl
  | .forOf _ left right body =>
    ((askedBy_nil (right.parts ++ left.parts)).append (askedBy_stmt types body)).own rfl
  | .forIn _ left right ⟨braces, body⟩ =>
    have asked := (askedBy_row types body).body braces
    ((askedBy_nil (right.parts ++ left.parts)).append asked).own rfl
  | .block _ body => (askedBy_row types body).under _
  | .breakStmt _ | .continueStmt _ | .emptyStmt _ | .returnStmt _ _ | .expression _ _
  | .importFrom _ _ | .declaration _ _ => askedBy_nil _

theorem askedBy_row (types : Types) : ∀ body : List Stmt,
    AskedBy (rowRequests types body) (rowParts body)
  | [] => askedBy_nil []
  | first :: rest => (askedBy_stmt types first).append (askedBy_row types rest)

theorem askedBy_clauses (types : Types) : ∀ list : List (Clause Stmt),
    AskedBy (clauseRequests types list) (clauseParts list)
  | [] => askedBy_nil []
  | ⟨test, body⟩ :: rest =>
    ((askedBy_nil (partsOf test)).append (askedBy_row types body)).append
      (askedBy_clauses types rest)

end

theorem askedBy_module (types : Types) (module : Module) :
    AskedBy (module.requests types) module.parts := by
  have functions : ∀ list : List Function,
      AskedBy ((list.map (·.body)).flatMap (rowRequests types)) (list.flatMap Function.parts) := by
    intro list
    induction list with
    | nil => exact askedBy_nil []
    | cons f rest ih =>
      have own := (askedBy_nil (f.params.map Part.param)).append (askedBy_row types f.body)
      exact (own.under (.function f)).append ih
  rw [Module.requests, Module.bodies, List.flatMap_append, List.flatMap_singleton]
  exact (functions module.functions).append (askedBy_row types module.topLevel)

/-- No request of a module is made twice if no two parts have the same identity. -/
theorem nodup_requests (types : Types) {module : Module}
    (distinct : (module.parts.map Part.id).Nodup) : (module.requests types).Nodup :=
  (distinct.sublist (askedBy_module types module)).of_map _

end Ir

/-! ## Answers -/

namespace Names

theorem Given.answered {names names' : Names} (given : names.Given names')
    {requests : List Request} {list : List String} (answered : names.Answered requests list) :
    names'.Answered requests list := by
  refine List.Forall₂.imp ?_ answered
  intro request name found
  cases request with
  | counter id => exact given.counters found
  | temporary id hint => exact given.temporaries found

end Names

namespace Emit

open Names (Answered)

variable {σ : Setting}

theorem invented_switch (select : Selection) (comparisons : List String) (cases : List CStmt) :
    (select.switch comparisons cases).invented =
      select.locals.map (·.name) ++ listInvented cases := by
  cases select <;> rfl

theorem blockInvented_force (b : Block CStmt) (forceBraces : Bool) :
    blockInvented { b with forceBraces } = blockInvented b := by
  cases b
  rfl

/-- A `switch` has the temporary that it asked for. -/
theorem answered_selection {scope : ScopeId} {id : NodeId} {discriminant : Expr}
    {w w' : Workspace} {select : Selection}
    (run : selection scope id discriminant σ w = (.ok select, w')) :
    w'.names.Answered (switchRequests σ.types id discriminant)
      (select.locals.map (·.name)) := by
  rw [switchRequests]
  obtain ⟨_, _, -, ⟨isNumber, rfl⟩ | ⟨notNumber, subject, rfl, found⟩⟩ := selection_ok run
  · rw [if_pos isNumber]
    exact .nil
  · rw [if_neg notNumber]
    exact .cons found .nil

mutual

/-- **What a statement invents.** The invented names of what a statement becomes are the answers to
its requests. -/
theorem Emits.answered : ∀ {scope : ScopeId} {s : Stmt} {w w' : Workspace} {c : CStmt}
    {xs : List Variable}, Emits σ scope s w c xs w' →
      w'.names.Answered (s.requests σ.types) c.invented
  | _, _, _, _, _, _, .breakStmt .. | _, _, _, _, _, _, .continueStmt ..
  | _, _, _, _, _, _, .emptyStmt .. | _, _, _, _, _, _, .expression _
  | _, _, _, _, _, _, .importFrom _ | _, _, _, _, _, _, .declaration _ => .nil
  | _, _, _, _, _, _, .returnStmt run => by
      obtain ⟨_, _, rfl, -⟩ := returned_ok run
      exact .nil
  | _, _, _, _, _, _, .ifThen _ yes => yes.answered
  | _, _, _, _, _, _, .ifElse _ yes no => by
      rw [CStmt.invented, blockInvented_force]
      exact List.rel_append (no.evolves.given.answered yes.answered) no.answered
  | _, _, _, _, _, _, .switchOn head each => by
      rw [invented_switch]
      exact List.rel_append (each.evolves.given.answered (answered_selection head)) each.answered
  | _, _, _, _, _, _, .whileLoop _ loop => loop.answered
  | _, _, _, _, _, _, .doLoop loop last =>
    ((evolving_expr _).evolves last).given.answered loop.answered
  | _, _, _, _, _, _, .forLoop _ _ _ loop => loop.answered
  | _, _, _, _, _, _, .forOf _ head loop => by
      have counter := loop.evolves.given.counters (loopHead_ok head).1
      have inside := loop.answered
      rw [rowRequests, rowRequests, List.append_nil] at inside
      split <;> exact .cons counter inside
  | _, _, _, _, _, _, .forIn _ _ head loop =>
    .cons (loop.evolves.given.counters (loopHead_ok head).1) loop.answered
  | _, _, _, _, _, _, .block inner => inner.answered

theorem EmitsAll.answered : ∀ {scope : ScopeId} {body : List Stmt} {w w' : Workspace}
    {cs : List CStmt} {xs : List Variable}, EmitsAll σ scope body w cs xs w' →
      w'.names.Answered (rowRequests σ.types body) (listInvented cs)
  | _, _, _, _, _, _, .nil .. => .nil
  | _, _, _, _, _, _, .cons first others =>
    List.rel_append (others.evolves.given.answered first.answered) others.answered

theorem EmitsBlock.answered : ∀ {scope : ScopeId} {body : List Stmt} {w w' : Workspace}
    {b : Block CStmt}, EmitsBlock σ scope body w b w' →
      w'.names.Answered (rowRequests σ.types body) (blockInvented b)
  | _, _, _, _, _, .intro _ all _ => all.answered

theorem EmitsHoisted.answered : ∀ {scope : ScopeId} {body : List Stmt} {w w' : Workspace}
    {cs : List CStmt} {xs : List Variable}, EmitsHoisted σ scope body w cs xs w' →
      w'.names.Answered (rowRequests σ.types body) (listInvented cs)
  | _, _, _, _, _, _, .intro _ all moved =>
    ((evolving_hoist _ _).evolves moved).given.answered all.answered

theorem EmitsClauses.answered : ∀ {scope : ScopeId} {select : Selection} {index : Nat}
    {list : List (Clause Stmt)} {w w' : Workspace} {comparisons : List String}
    {cases : List CStmt} {xs : List Variable},
    EmitsClauses σ scope select index list w comparisons cases xs w' →
      w'.names.Answered (clauseRequests σ.types list) (listInvented cases)
  | _, _, _, _, _, _, _, _, _, .nil .. => .nil
  | _, _, _, _, _, _, _, _, _, .cons _ first others =>
    List.rel_append (others.evolves.given.answered first.answered) others.answered

end

/-! ## Files -/

theorem answered_functionBody {signature : String} {body : List Stmt} {releaseAtEnd isMain : Bool}
    {g : CFunction} {w w' : Workspace}
    (run : functionBody signature body releaseAtEnd isMain σ w = (.ok g, w')) :
    w'.names.Answered (rowRequests σ.types body) (listInvented g.statements) := by
  obtain ⟨_, _, _, -, all, -⟩ := emits_functionBody run
  exact all.answered

theorem answered_functions : ∀ {list : List Function} {gs : List CFunction} {w w' : Workspace},
    functions list σ w = (.ok gs, w') →
      w'.names.Answered ((list.map (·.body)).flatMap (rowRequests σ.types))
        (gs.flatMap fun g => listInvented g.statements)
  | [], _, _, _, run => by
      rw [functions, pure_ok] at run
      obtain ⟨rfl, -⟩ := run
      exact .nil
  | _ :: rest, _, _, _, run => by
      simp only [functions, bind_ok, pure_ok] at run
      obtain ⟨_, _, first, _, _, others, rfl, rfl⟩ := run
      have given := ((evolving_functions rest).evolves others).given
      exact List.rel_append (given.answered (answered_functionBody first))
        (answered_functions others)

/-- The invented names of a file are the answers to the requests of its module. -/
theorem answered_program {module : Module} {file : CProgram} {w w' : Workspace}
    (run : program module σ w = (.ok file, w')) :
    w'.names.Answered (module.requests σ.types) file.invented := by
  simp only [program, bind_ok, get_bind, pure_ok] at run
  obtain ⟨gs, _, each, main, _, last, _, _, needed, rfl, rfl⟩ := run
  have names := (expr_ok needed).2
  have given := ((evolving_functionBody _ _ _ _).evolves last).given
  have main := answered_functionBody last
  rw [names, Module.requests, Module.bodies, List.flatMap_append, List.flatMap_singleton,
    CProgram.invented, List.flatMap_append, List.flatMap_singleton]
  exact List.rel_append (given.answered (answered_functions each)) main

end Emit

end ScriptToC
