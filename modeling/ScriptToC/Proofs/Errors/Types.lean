import ScriptToC.Proofs.Errors.Modules
import ScriptToC.Proofs.Hoisting.Capture
import ScriptToC.Proofs.Lowering.Parts

/-!
# Emission with all types known

Emission looks up the types of the declared variables and of the collections that loops run through,
and fails if one has none. If every part of a module that stands for a value has a type, emission
does not fail for want of a type (`informed_moduleText`), from whatever workspace it begins. A
lowered module is such a module: lowering gives every part an identity of its own, and a type to
those that stand for values (`lowered_parts_known`).
-/

set_option autoImplicit false

namespace ScriptToC

open Ir

/-- The types of all values among the parts are known. -/
def Setting.Knows (σ : Setting) (parts : List Part) : Prop :=
  ∀ part ∈ parts, part.isValue = true → (σ.types part.id).isSome = true

namespace Setting

variable {σ : Setting} {part : Part} {parts others : List Part}

theorem knows_cons : σ.Knows (part :: parts) ↔
    (part.isValue = true → (σ.types part.id).isSome = true) ∧ σ.Knows parts :=
  List.forall_mem_cons

theorem knows_append : σ.Knows (parts ++ others) ↔ σ.Knows parts ∧ σ.Knows others :=
  List.forall_mem_append

theorem Knows.body {braces : Option Node} {body : List Stmt}
    (knows : σ.Knows (bodyParts ⟨braces, body⟩)) : σ.Knows (rowParts body) :=
  fun part isPart => knows part (rowParts_subset (List.Subset.refl _) isPart)

end Setting

namespace Emit

variable {α β : Type} {σ : Setting}

/-! ## Steps -/

/-- The step does not fail for want of a type. -/
def Informed (σ : Setting) (m : EmitM α) : Prop :=
  ∀ (w : Workspace) (span : Span) (what : Subject), (m σ w).1 ≠ .error (.missingType span what)

theorem Informed.bind {m : EmitM α} {next : α → EmitM β} (first : Informed σ m)
    (others : ∀ a, Informed σ (next a)) : Informed σ (m >>= next) := by
  intro w span what failed
  rw [run_bind] at failed
  split at failed
  next a middle eq => exact others a middle span what failed
  next _ middle eq =>
    cases failed
    exact first w span what (congrArg Prod.fst eq)

theorem informed_pure (a : α) : Informed σ (pure a : EmitM α) := by
  intro w span what failed
  cases failed

theorem informed_read : Informed σ (read : EmitM Setting) := by
  intro w span what failed
  cases failed

theorem informed_get : Informed σ (get : EmitM Workspace) := by
  intro w span what failed
  cases failed

theorem informed_unsupported (span : Span) (cause : Unsupported) :
    Informed σ (throw (.unsupported span cause) : EmitM α) := by
  intro w _ _ failed
  cases failed

/-- Expressions have no use for a type that is not known. -/
theorem informed_expr {spans : List Span} {action : Types → ExprM α}
    (each : ∀ types, ExprLocated spans (action types)) : Informed σ (expr action) := by
  intro w span what failed
  obtain ⟨_, -, _, isUnsupported⟩ := each σ.types w.headers _ failed
  cases isUnsupported

theorem informed_exprText (e : Expr) : Informed σ (expr (exprText · e)) :=
  informed_expr fun types => exprLocated_exprText types e (List.Subset.refl e.spans)

theorem informed_placeText (e : Expr) : Informed σ (expr (placeText · e)) :=
  informed_expr fun types => exprLocated_placeText types e (List.Subset.refl e.spans)

theorem informed_condition (e : Expr) : Informed σ (expr (condition · e)) :=
  informed_expr fun types => exprLocated_condition types (List.Subset.refl e.spans)

theorem informed_assignment (target : String) (type : Option CType) (e : Expr) :
    Informed σ (expr (assignment · target type e)) :=
  informed_expr fun types => exprLocated_assignment types target type (List.Subset.refl e.spans)

theorem informed_needs (header : String) : Informed σ (expr fun _ => needs header) :=
  informed_expr fun _ => @exprLocated_needs [] header

theorem Informed.mapM {step : α → EmitM β} (each : ∀ a, Informed σ (step a)) (part : Option α) :
    Informed σ (part.mapM step) := by
  cases part with
  | none => exact informed_pure none
  | some a =>
    rw [Option.mapM_some, map_eq_pure_bind]
    exact (each a).bind fun _ => informed_pure _

theorem informed_changeScopes (scope : ScopeId) (change : ScopeTree → Option (α × ScopeTree)) :
    Informed σ (changeScopes scope change) := by
  intro w span what failed
  rw [changeScopes, get_bind] at failed
  rcases eq : change w.scopes with _ | ⟨a, later⟩ <;> rw [eq] at failed <;> cases failed

theorem informed_askScopes (scope : ScopeId) (ask : ScopeTree → Option α) :
    Informed σ (askScopes scope ask) := by
  intro w span what failed
  rw [askScopes, get_bind] at failed
  cases eq : ask w.scopes <;> rw [eq] at failed <;> cases failed

theorem informed_declare (scope : ScopeId) (x : Variable) : Informed σ (declare scope x) :=
  (informed_changeScopes scope _).bind fun _ => informed_pure _

theorem informed_hoist (source target : ScopeId) : Informed σ (hoist source target) :=
  (informed_changeScopes source _).bind fun _ => informed_changeScopes target _

theorem informed_counter (id : NodeId) : Informed σ (counter id) := by
  intro w span what failed
  cases failed

theorem informed_temporary (id : NodeId) (hint : String) : Informed σ (temporary id hint) := by
  intro w span what failed
  cases failed

theorem informed_newFunction : Informed σ newFunction := by
  intro w span what failed
  cases failed

theorem informed_typeOfNode {node : Node} (known : (σ.types node.id).isSome = true)
    (what : Subject) : Informed σ (typeOfNode node what) := by
  intro w span what' failed
  obtain ⟨type, found⟩ := Option.isSome_iff_exists.1 known
  rw [typeOfNode, read_bind, found] at failed
  cases failed

/-! ## Parts of statements -/

theorem informed_block (scope : ScopeId) {body : ScopeId → EmitM (List CStmt)}
    (each : ∀ inner, Informed σ (body inner)) : Informed σ (block scope body) := by
  apply (informed_changeScopes scope _).bind
  intro inner
  apply (each inner).bind
  intro statements
  exact (informed_askScopes inner _).bind fun _ => informed_pure _

theorem informed_hoisted (scope : ScopeId) {body : ScopeId → EmitM (List CStmt)}
    (each : ∀ inner, Informed σ (body inner)) : Informed σ (hoisted scope body) := by
  apply (informed_changeScopes scope _).bind
  intro inner
  apply (each inner).bind
  intro statements
  exact (informed_hoist inner scope).bind fun _ => informed_pure _

theorem informed_returned (scope : ScopeId) (value : Option Expr) :
    Informed σ (returned scope value) := by
  apply (Informed.mapM informed_exprText value).bind
  intro text
  exact (informed_askScopes scope _).bind fun _ => informed_pure _

theorem informed_expressionStatement (e : Expr) : Informed σ (expressionStatement e) := by
  unfold expressionStatement
  split
  · apply informed_read.bind
    intro setting
    apply (informed_placeText _).bind
    intro place
    exact informed_assignment _ _ _
  · exact (informed_exprText _).bind fun _ => informed_pure _

theorem informed_importHeader (path : String) : Informed σ (importHeader path) := by
  apply informed_read.bind
  intro setting
  split
  · exact informed_needs _
  · exact informed_pure ()

theorem informed_selection (scope : ScopeId) (id : NodeId) (discriminant : Expr) :
    Informed σ (selection scope id discriminant) := by
  apply informed_read.bind
  intro setting
  apply (informed_exprText discriminant).bind
  intro subject
  split
  · exact informed_pure _
  · apply (informed_temporary id _).bind
    intro name
    apply (informed_declare scope _).bind
    intro _
    exact (informed_needs _).bind fun _ => informed_pure _

theorem informed_label (select : Selection) (index : Nat) (test : Expr) :
    Informed σ (label select index test) := by
  apply (informed_exprText test).bind
  intro text
  cases select <;> exact informed_pure _

theorem informed_declarations (scope : ScopeId) {declarators : List Declarator}
    (knows : σ.Knows (declarators.flatMap Declarator.parts)) :
    Informed σ (declarations scope declarators) := by
  induction declarators with
  | nil => exact informed_pure []
  | cons declarator rest ih =>
    rw [List.flatMap_cons, Setting.knows_append, Declarator.parts, Setting.knows_cons] at knows
    apply (informed_typeOfNode (knows.1.1 rfl) _).bind
    intro type
    apply (informed_declare scope _).bind
    intro _
    apply (Informed.mapM (fun e => informed_assignment _ _ e) declarator.init).bind
    intro first
    exact (ih knows.2).bind fun _ => informed_pure _

theorem informed_binding (scope : ScopeId) {left : ForBinding} (knows : σ.Knows left.parts) :
    Informed σ (binding scope left) := by
  cases left with
  | declare declarator =>
    rw [ForBinding.parts, Declarator.parts, Setting.knows_cons] at knows
    apply (informed_typeOfNode (knows.1 rfl) _).bind
    intro type
    exact (informed_declare scope _).bind fun _ => informed_pure _
  | target e => exact informed_placeText e

theorem informed_loopHead (scope : ScopeId) (id : NodeId) {left : ForBinding} (right : Expr)
    (knows : σ.Knows left.parts) : Informed σ (loopHead scope id left right) := by
  apply (informed_counter id).bind
  intro counter
  apply (informed_declare scope _).bind
  intro _
  apply (informed_exprText right).bind
  intro text
  exact (informed_binding scope knows).bind fun _ => informed_pure _

theorem informed_loopStart (scope : ScopeId) {init : Option ForInit}
    (knows : σ.Knows (startParts init)) : Informed σ (loopStart scope init) := by
  rcases init with _ | (declarators | e)
  · exact informed_pure _
  · exact (informed_declarations scope knows).bind fun _ => informed_pure _
  · exact (informed_exprText e).bind fun _ => informed_pure _

/-- The type of a collection is known. -/
theorem informed_collection {right : Expr} (knows : σ.Knows right.parts) :
    Informed σ (typeOfNode right.node .iterated) :=
  informed_typeOfNode (knows _ right.expr_mem_parts rfl) _

/-! ## Statements -/

mutual

/-- Where the types of all values are known, emitting a statement does not fail for want of one. -/
theorem informed_stmt (scope : ScopeId) : ∀ s : Stmt, σ.Knows s.parts → Informed σ (stmt scope s)
  | .breakStmt _, _ => by rw [stmt]; exact informed_pure _
  | .continueStmt _, _ => by rw [stmt]; exact informed_pure _
  | .emptyStmt _, _ => by rw [stmt]; exact informed_pure _
  | .returnStmt _ value, _ => by rw [stmt]; exact informed_returned scope value
  | .ifThen _ test ⟨_, body⟩, knows => by
      rw [stmt]
      rw [Stmt.parts, Setting.knows_cons, Setting.knows_append] at knows
      apply (informed_condition test).bind
      intro text
      exact (informed_body scope body knows.2.2.body).bind fun _ => informed_pure _
  | .ifElse _ test ⟨_, body⟩ ⟨_, otherwise⟩, knows => by
      rw [stmt]
      rw [Stmt.parts, Setting.knows_cons, Setting.knows_append, Setting.knows_append] at knows
      apply (informed_condition test).bind
      intro text
      apply (informed_body scope body knows.2.1.2.body).bind
      intro yes
      exact (informed_body scope otherwise knows.2.2.body).bind fun _ => informed_pure _
  | .switchOn node discriminant list, knows => by
      rw [stmt]
      rw [Stmt.parts, Setting.knows_cons, Setting.knows_append] at knows
      apply (informed_selection scope node.id discriminant).bind
      intro select
      exact (informed_clauses scope select 0 list knows.2.2).bind fun _ => informed_pure _
  | .whileLoop _ test ⟨_, body⟩, knows => by
      rw [stmt]
      rw [Stmt.parts, Setting.knows_cons, Setting.knows_append] at knows
      apply (informed_condition test).bind
      intro text
      exact (informed_body scope body knows.2.2.body).bind fun _ => informed_pure _
  | .doLoop _ ⟨_, body⟩ test, knows => by
      rw [stmt]
      rw [Stmt.parts, Setting.knows_cons, Setting.knows_append] at knows
      apply (informed_body scope body knows.2.1.body).bind
      intro block
      exact (informed_condition test).bind fun _ => informed_pure _
  | .forLoop _ init test update ⟨_, body⟩, knows => by
      rw [stmt]
      rw [Stmt.parts, Setting.knows_cons, Setting.knows_append, Setting.knows_append,
        Setting.knows_append] at knows
      apply (informed_loopStart scope knows.2.1.1.1).bind
      intro start
      apply (Informed.mapM informed_condition test).bind
      intro text
      apply (Informed.mapM informed_exprText update).bind
      intro text
      exact (informed_body scope body knows.2.2.body).bind fun _ => informed_pure _
  | .forOf node left right body, knows => by
      rw [stmt]
      rw [Stmt.parts, Setting.knows_cons, Setting.knows_append, Setting.knows_append] at knows
      obtain ⟨-, ⟨inRight, inLeft⟩, inBody⟩ := knows
      apply (informed_collection inRight).bind
      intro type
      cases type with
      | array element capacity dynamic =>
          apply (informed_loopHead scope node.id right inLeft).bind
          intro head
          apply (informed_hoisted scope fun inner =>
            (informed_stmt inner body inBody).bind fun _ => informed_pure _).bind
          intro body
          cases dynamic <;> exact informed_pure _
      | _ => exact informed_unsupported _ _
  | .forIn node left right ⟨_, body⟩, knows => by
      rw [stmt]
      rw [Stmt.parts, Setting.knows_cons, Setting.knows_append, Setting.knows_append] at knows
      obtain ⟨-, ⟨inRight, inLeft⟩, inBody⟩ := knows
      apply (informed_collection inRight).bind
      intro type
      split
      · apply (informed_loopHead scope node.id right inLeft).bind
        intro head
        apply (informed_hoisted scope fun inner => informed_stmts inner body inBody.body).bind
        intro body
        exact informed_pure _
      · exact informed_unsupported _ _
  | .expression _ e, _ => by
      rw [stmt]
      exact (informed_expressionStatement e).bind fun _ => informed_pure _
  | .block _ body, knows => by
      rw [stmt]
      rw [Stmt.parts, Setting.knows_cons] at knows
      exact (informed_body scope body knows.2).bind fun _ => informed_pure _
  | .importFrom _ path, _ => by
      rw [stmt]
      exact (informed_importHeader path).bind fun _ => informed_pure _
  | .declaration _ _, knows => by
      rw [stmt]
      rw [Stmt.parts, Setting.knows_cons] at knows
      exact (informed_declarations scope knows.2).bind fun _ => informed_pure _

theorem informed_body (scope : ScopeId) : ∀ body : List Stmt, σ.Knows (rowParts body) →
    Informed σ (block scope fun inner => stmts inner body)
  | body, knows => informed_block scope fun inner => informed_stmts inner body knows

theorem informed_stmts (scope : ScopeId) : ∀ body : List Stmt, σ.Knows (rowParts body) →
    Informed σ (stmts scope body)
  | [], _ => by rw [stmts]; exact informed_pure _
  | s :: rest, knows => by
      rw [stmts]
      rw [rowParts, Setting.knows_append] at knows
      apply (informed_stmt scope s knows.1).bind
      intro statement
      exact (informed_stmts scope rest knows.2).bind fun _ => informed_pure _

theorem informed_clauses (scope : ScopeId) (select : Selection) (index : Nat) :
    ∀ list : List (Clause Stmt), σ.Knows (clauseParts list) →
      Informed σ (clauses scope select index list)
  | [], _ => by rw [clauses]; exact informed_pure _
  | ⟨test, body⟩ :: rest, knows => by
      rw [clauses]
      rw [clauseParts, Setting.knows_append, Setting.knows_append] at knows
      apply (Informed.mapM (informed_label select index) test).bind
      intro label
      apply (informed_hoisted scope fun inner => informed_stmts inner body knows.1.2).bind
      intro body
      exact (informed_clauses scope select (index + 1) rest knows.2).bind fun _ => informed_pure _

end

/-! ## Modules -/

theorem informed_functionBody (signature : String) {body : List Stmt} (releaseAtEnd isMain : Bool)
    (knows : σ.Knows (rowParts body)) :
    Informed σ (functionBody signature body releaseAtEnd isMain) := by
  apply informed_newFunction.bind
  intro scope
  apply (informed_stmts scope body knows).bind
  intro statements
  apply (informed_askScopes scope _).bind
  intro locals
  cases releaseAtEnd with
  | true => exact (informed_askScopes scope _).bind fun _ => informed_pure _
  | false => exact (informed_pure []).bind fun _ => informed_pure _

theorem informed_functions {list : List Function} (knows : σ.Knows (list.flatMap Function.parts)) :
    Informed σ (functions list) := by
  induction list with
  | nil => exact informed_pure []
  | cons first rest ih =>
    rw [List.flatMap_cons, Setting.knows_append, Function.parts, Setting.knows_cons,
      Setting.knows_append] at knows
    apply (informed_functionBody _ _ _ knows.1.2.2).bind
    intro first
    exact (ih knows.2).bind fun _ => informed_pure _

/-- Emission with the types of all values does not fail for want of a type. -/
theorem informed_moduleText {module : Module} (knows : σ.Knows module.parts) :
    Informed σ (moduleText module) := by
  rw [Module.parts, Setting.knows_append] at knows
  have headers : ∀ list : List String, ExprLocated [] (list.forM needs) := by
    intro list
    induction list with
    | nil => exact exprLocated_pure ()
    | cons header rest ih => exact (exprLocated_needs header).bind fun _ => ih
  apply Informed.bind
  · apply (informed_functions knows.1).bind
    intro functions
    apply (informed_functionBody _ _ _ knows.2).bind
    intro main
    apply informed_get.bind
    intro w
    apply (informed_expr fun _ => headers _).bind
    intro _
    exact informed_get.bind fun _ => informed_pure _
  · intro program w span what failed
    obtain ⟨text, _, run⟩ := @render_program_ok σ w program
    rw [run] at failed
    cases failed

end Emit

namespace Lowering

open Source

/-- The types at the end are those of the nodes that have one. -/
theorem State.isSome_resolved (state : State) (id : NodeId) :
    (state.resolved.find? id).isSome = (state.types.find? id).isSome := by
  rw [State.resolved, TypeTable.find?_map, Option.isSome_map]

/-- **What emission can rely on.** In a script that is lowered, the functions, parameters,
statements, declared variables and expressions have identities of their own, every declared variable
and every expression has a type, and the emission of the module does not fail for want of a type. -/
theorem lowered_parts_known {script : Program} {lowered : Lowered}
    (run : lowerProgram script = .ok lowered) :
    (lowered.module.parts.map Part.id).Nodup ∧
      (∀ part ∈ lowered.module.parts, part.isValue = true →
        (lowered.types.find? part.id).isSome = true) ∧
      ∀ (marker : String) (w : Workspace) (span : Span) (what : Subject),
        (Emit.moduleText lowered.module ⟨lowered.types.find?, marker⟩ w).1 ≠
          .error (.missingType span what) := by
  obtain ⟨module, state, items, rfl⟩ := lowerProgram_ok run
  have makes := makes_lowerItems items
  have known : ∀ part ∈ module.parts, part.isValue = true →
      (state.resolved.find? part.id).isSome = true := by
    intro part member isValue
    rw [state.isSome_resolved]
    exact makes.typed part member isValue
  refine ⟨makes.distinct, known, ?_⟩
  intro marker w span what
  have knows : Setting.Knows ⟨state.resolved.find?, marker⟩ module.parts := known
  exact Emit.informed_moduleText knows w span what

/-- A function with a parameter, a declared variable and a loop has parts of all kinds. -/
theorem lowered_parts_known_keepThenLoop : ∃ lowered,
    lowerProgram (keepThenLoop "z") = .ok lowered ∧ lowered.module.parts.length = 11 ∧
      (lowered.module.parts.map Part.id).Nodup ∧
      (∀ part ∈ lowered.module.parts, part.isValue = true →
        (lowered.types.find? part.id).isSome = true) ∧
      ∀ (marker : String) (w : Workspace) (span : Span) (what : Subject),
        (Emit.moduleText lowered.module ⟨lowered.types.find?, marker⟩ w).1 ≠
          .error (.missingType span what) := by
  have many : (emitted? (keepThenLoop "z") "ts2c").any (fun done =>
      done.1.module.parts.length = 11) = true := by decide +kernel
  obtain ⟨⟨lowered, file⟩, done, many⟩ := (Option.any_eq_true _ _).1 many
  obtain ⟨lower, -⟩ := emitted?_eq_some done
  exact ⟨lowered, lower, of_decide_eq_true many, lowered_parts_known lower⟩

end Lowering

end ScriptToC
