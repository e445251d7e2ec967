import ScriptToC.Proofs.Emission.Run
import ScriptToC.Proofs.Names.Fresh
import ScriptToC.Proofs.Scope.Chain

/-!
# What emission does to the workspace

Whatever the emitter does to the workspace, it does by operations on the scopes, by naming nodes and
by registering headers, also where it fails in the end (`evolving_stmt`). So a tree that scope
operations and emitted statements lead to, in any order, is well formed (`Reachable.wellFormed`),
and the names that were reserved at the start stay out of the way (`Evolves.apart`).
-/

set_option autoImplicit false

namespace ScriptToC

open Ir

/-! ## Steps of the workspace -/

namespace Workspace

/-- What one step does to the workspace. -/
inductive Step : Workspace → Workspace → Prop
  | scopes {w : Workspace} {tree : ScopeTree} :
      w.scopes.Step tree → Step w { w with scopes := tree }
  | counter (w : Workspace) (id : NodeId) : Step w { w with names := (w.names.counter id).2 }
  | temporary (w : Workspace) (id : NodeId) (hint : String) :
      Step w { w with names := (w.names.temporary id hint).2 }
  | headers (w : Workspace) (headers : Headers) : Step w { w with headers }

/-- What steps in a row do to the workspace. -/
abbrev Evolves : Workspace → Workspace → Prop :=
  Relation.ReflTransGen Step

variable {w w' : Workspace}

/-- Operations on the scopes alone. -/
theorem evolves_scopes {tree : ScopeTree} (evolves : w.scopes.Evolves tree) :
    w.Evolves { w with scopes := tree } :=
  evolves.lift (fun tree => { w with scopes := tree }) fun _ _ step => .scopes step

theorem Evolves.scopes (evolves : w.Evolves w') : w.scopes.Evolves w'.scopes := by
  induction evolves with
  | refl => exact .refl
  | tail _ step ih =>
    cases step with
    | scopes step => exact ih.tail step
    | counter | temporary | headers => exact ih

/-- Names stay apart from the reserved ones. -/
theorem Evolves.apart (evolves : w.Evolves w') {reserved : List String}
    (apart : w.names.Apart reserved) : w'.names.Apart reserved := by
  induction evolves with
  | refl => exact apart
  | tail _ step ih =>
    cases step with
    | scopes | headers => exact ih
    | counter id => exact (ih.counter id).2
    | temporary id hint => exact (ih.temporary id hint).2

end Workspace

namespace Emit

open Workspace (Evolves)

/-- A step whose runs, whether they succeed or fail, do to the workspace what steps can do. -/
def Evolving {α : Type} (m : EmitM α) : Prop :=
  ∀ (σ : Setting) (w : Workspace), w.Evolves (m σ w).2

variable {α β : Type}

/-- A step that leaves the workspace alone. -/
theorem Evolving.of_eq {m : EmitM α} (same : ∀ σ w, (m σ w).2 = w) : Evolving m :=
  fun σ w => (same σ w).symm ▸ .refl

theorem Evolving.bind {m : EmitM α} {next : α → EmitM β} (first : Evolving m)
    (others : ∀ a, Evolving (next a)) : Evolving (m >>= next) := by
  intro σ w
  have step := first σ w
  rw [run_bind]
  split
  next a middle eq =>
    rw [eq] at step
    exact step.trans (others a σ middle)
  next cause middle eq =>
    rw [eq] at step
    exact step

theorem evolving_pure (a : α) : Evolving (pure a : EmitM α) :=
  .of_eq fun _ _ => rfl

theorem evolving_throw (cause : EmitError) : Evolving (throw cause : EmitM α) :=
  .of_eq fun _ _ => rfl

theorem evolving_expr (action : Types → ExprM α) : Evolving (expr action) :=
  fun _ w => .single (.headers w _)

theorem evolving_read : Evolving (read : EmitM Setting) :=
  .of_eq fun _ _ => rfl

theorem Evolving.map {m : EmitM α} (f : α → β) (step : Evolving m) : Evolving (f <$> m) := by
  rw [map_eq_pure_bind]
  exact step.bind fun a => evolving_pure (f a)

theorem Evolving.mapM {step : α → EmitM β} (each : ∀ a, Evolving (step a)) (part : Option α) :
    Evolving (part.mapM step) := by
  cases part with
  | none => exact evolving_pure none
  | some a => exact (each a).map some

/-! ## Basic steps -/

theorem evolving_changeScopes {scope : ScopeId} {change : ScopeTree → Option (α × ScopeTree)}
    (operates : ∀ tree a later, change tree = some (a, later) → tree.Evolves later) :
    Evolving (changeScopes scope change) := by
  intro σ w
  rw [changeScopes, get_bind]
  rcases eq : change w.scopes with _ | ⟨a, later⟩
  · exact .refl
  · exact Workspace.evolves_scopes (operates _ _ _ eq)

theorem evolving_askScopes (scope : ScopeId) (ask : ScopeTree → Option α) :
    Evolving (askScopes scope ask) := by
  intro σ w
  rw [askScopes, get_bind]
  cases ask w.scopes <;> exact .refl

theorem evolving_newChild (parent : ScopeId) : Evolving (newChild parent) :=
  evolving_changeScopes fun _ _ _ made => .single (.child made)

theorem evolving_declare (scope : ScopeId) (x : Variable) : Evolving (declare scope x) := by
  apply (evolving_changeScopes fun _ _ _ added => .single (.add added)).bind
  intro _
  exact evolving_pure ()

theorem evolving_localsOf (scope : ScopeId) : Evolving (localsOf scope) :=
  evolving_askScopes scope _

theorem evolving_releases (scope : ScopeId) (returned : Option String) :
    Evolving (releases scope returned) :=
  evolving_askScopes scope _

theorem evolving_hoist (source target : ScopeId) : Evolving (hoist source target) := by
  apply (evolving_changeScopes fun _ _ _ drained => .single (.drain drained)).bind
  intro moved
  apply evolving_changeScopes
  intro tree _ later extended
  obtain ⟨_, extended, same⟩ := Option.map_eq_some_iff.1 extended
  cases same
  exact ScopeTree.evolves_of_extend? extended

theorem evolving_counter (id : NodeId) : Evolving (counter id) :=
  fun _ w => .single (.counter w id)

theorem evolving_temporary (id : NodeId) (hint : String) : Evolving (temporary id hint) :=
  fun _ w => .single (.temporary w id hint)

theorem evolving_typeOfNode (node : Node) (what : Subject) : Evolving (typeOfNode node what) := by
  apply evolving_read.bind
  intro setting
  split
  · exact evolving_pure _
  · exact evolving_throw _

theorem evolving_newFunction : Evolving newFunction :=
  fun _ w => .single (.scopes (.function w.scopes))

/-! ## Parts of statements -/

theorem evolving_block (scope : ScopeId) {body : ScopeId → EmitM (List CStmt)}
    (each : ∀ inner, Evolving (body inner)) : Evolving (block scope body) := by
  apply (evolving_newChild scope).bind
  intro inner
  apply (each inner).bind
  intro _
  apply (evolving_localsOf inner).bind
  intro locals
  exact evolving_pure _

theorem evolving_hoisted (scope : ScopeId) {body : ScopeId → EmitM (List CStmt)}
    (each : ∀ inner, Evolving (body inner)) : Evolving (hoisted scope body) := by
  apply (evolving_newChild scope).bind
  intro inner
  apply (each inner).bind
  intro _
  apply (evolving_hoist inner scope).bind
  intro _
  exact evolving_pure _

theorem evolving_returned (scope : ScopeId) (value : Option Expr) :
    Evolving (returned scope value) := by
  apply (Evolving.mapM (fun _ => evolving_expr _) value).bind
  intro text
  apply (evolving_releases scope _).bind
  intro plan
  exact evolving_pure _

theorem evolving_declarations (scope : ScopeId) (declarators : List Declarator) :
    Evolving (declarations scope declarators) := by
  induction declarators with
  | nil => exact evolving_pure []
  | cons declarator rest ih =>
    apply (evolving_typeOfNode _ _).bind
    intro type
    apply (evolving_declare scope _).bind
    intro _
    apply (Evolving.mapM (fun _ => evolving_expr _) declarator.init).bind
    intro text
    apply ih.bind
    intro _
    exact evolving_pure _

theorem evolving_binding (scope : ScopeId) (left : ForBinding) : Evolving (binding scope left) := by
  cases left with
  | declare declarator =>
    apply (evolving_typeOfNode _ _).bind
    intro type
    apply (evolving_declare scope _).bind
    intro _
    exact evolving_pure _
  | target e => exact evolving_expr _

theorem evolving_loopHead (scope : ScopeId) (id : NodeId) (left : ForBinding) (right : Expr) :
    Evolving (loopHead scope id left right) := by
  apply (evolving_counter id).bind
  intro counter
  apply (evolving_declare scope _).bind
  intro _
  apply (evolving_expr _).bind
  intro text
  apply (evolving_binding scope left).bind
  intro target
  exact evolving_pure _

theorem evolving_expressionStatement (e : Expr) : Evolving (expressionStatement e) := by
  unfold expressionStatement
  split
  · apply evolving_read.bind
    intro setting
    apply (evolving_expr _).bind
    intro text
    exact evolving_expr _
  · exact (evolving_expr _).bind fun _ => evolving_pure _

theorem evolving_importHeader (path : String) : Evolving (importHeader path) := by
  apply evolving_read.bind
  intro setting
  split
  · exact evolving_expr _
  · exact evolving_pure _

theorem evolving_selection (scope : ScopeId) (id : NodeId) (discriminant : Expr) :
    Evolving (selection scope id discriminant) := by
  apply evolving_read.bind
  intro setting
  apply (evolving_expr _).bind
  intro text
  split
  · exact evolving_pure _
  · apply (evolving_temporary id _).bind
    intro name
    apply (evolving_declare scope _).bind
    intro _
    apply (evolving_expr _).bind
    intro text
    exact evolving_pure _

theorem evolving_label (select : Selection) (index : Nat) (test : Expr) :
    Evolving (label select index test) := by
  apply (evolving_expr _).bind
  intro text
  cases select <;> exact evolving_pure _

theorem evolving_loopStart (scope : ScopeId) (init : Option ForInit) :
    Evolving (loopStart scope init) := by
  rcases init with _ | (declarators | e)
  · exact evolving_pure _
  · exact (evolving_declarations scope declarators).bind fun _ => evolving_pure _
  · exact (evolving_expr _).bind fun _ => evolving_pure _

/-! ## Statements -/

mutual

/-- What emitting a statement does to the workspace, also if it fails. -/
theorem evolving_stmt : ∀ (scope : ScopeId) (s : Stmt), Evolving (stmt scope s)
  | _, .breakStmt _ => by rw [stmt]; exact evolving_pure _
  | _, .continueStmt _ => by rw [stmt]; exact evolving_pure _
  | _, .emptyStmt _ => by rw [stmt]; exact evolving_pure _
  | scope, .returnStmt _ value => by rw [stmt]; exact evolving_returned scope value
  | scope, .ifThen _ _ ⟨_, body⟩ => by
      rw [stmt]
      apply (evolving_expr _).bind
      intro text
      apply (evolving_block scope fun inner => evolving_stmts inner body).bind
      intro block
      exact evolving_pure _
  | scope, .ifElse _ _ ⟨_, body⟩ ⟨_, otherwise⟩ => by
      rw [stmt]
      apply (evolving_expr _).bind
      intro text
      apply (evolving_block scope fun inner => evolving_stmts inner body).bind
      intro block
      apply (evolving_block scope fun inner => evolving_stmts inner otherwise).bind
      intro block
      exact evolving_pure _
  | scope, .switchOn node discriminant list => by
      rw [stmt]
      apply (evolving_selection scope node.id discriminant).bind
      intro select
      apply (evolving_clauses scope select 0 list).bind
      intro clauses
      exact evolving_pure _
  | scope, .whileLoop _ _ ⟨_, body⟩ => by
      rw [stmt]
      apply (evolving_expr _).bind
      intro text
      apply (evolving_block scope fun inner => evolving_stmts inner body).bind
      intro block
      exact evolving_pure _
  | scope, .doLoop _ ⟨_, body⟩ _ => by
      rw [stmt]
      apply (evolving_block scope fun inner => evolving_stmts inner body).bind
      intro block
      apply (evolving_expr _).bind
      intro text
      exact evolving_pure _
  | scope, .forLoop _ init test update ⟨_, body⟩ => by
      rw [stmt]
      apply (evolving_loopStart scope init).bind
      intro start
      apply (Evolving.mapM (fun _ => evolving_expr _) test).bind
      intro text
      apply (Evolving.mapM (fun _ => evolving_expr _) update).bind
      intro text
      apply (evolving_block scope fun inner => evolving_stmts inner body).bind
      intro block
      exact evolving_pure _
  | scope, .forOf node left right body => by
      rw [stmt]
      apply (evolving_typeOfNode _ _).bind
      intro type
      cases type with
      | array element capacity dynamic =>
          apply (evolving_loopHead scope node.id left right).bind
          intro head
          have loop : ∀ inner, Evolving (do return [← stmt inner body]) := by
            intro inner
            exact (evolving_stmt inner body).bind fun _ => evolving_pure _
          apply (evolving_hoisted scope loop).bind
          intro body
          cases dynamic <;> exact evolving_pure _
      | _ => exact evolving_throw _
  | scope, .forIn node left right ⟨_, body⟩ => by
      rw [stmt]
      apply (evolving_typeOfNode _ _).bind
      intro type
      split
      · apply (evolving_loopHead scope node.id left right).bind
        intro head
        apply (evolving_hoisted scope fun inner => evolving_stmts inner body).bind
        intro body
        exact evolving_pure _
      · exact evolving_throw _
  | _, .expression _ e => by
      rw [stmt]
      exact (evolving_expressionStatement e).bind fun _ => evolving_pure _
  | scope, .block _ body => by
      rw [stmt]
      apply (evolving_block scope fun inner => evolving_stmts inner body).bind
      intro block
      exact evolving_pure _
  | _, .importFrom _ path => by
      rw [stmt]
      exact (evolving_importHeader path).bind fun _ => evolving_pure _
  | scope, .declaration _ declarators => by
      rw [stmt]
      exact (evolving_declarations scope declarators).bind fun _ => evolving_pure _

theorem evolving_stmts : ∀ (scope : ScopeId) (body : List Stmt), Evolving (stmts scope body)
  | _, [] => by rw [stmts]; exact evolving_pure _
  | scope, s :: rest => by
      rw [stmts]
      apply (evolving_stmt scope s).bind
      intro statement
      apply (evolving_stmts scope rest).bind
      intro statements
      exact evolving_pure _

theorem evolving_clauses : ∀ (scope : ScopeId) (select : Selection) (index : Nat)
    (list : List (Clause Stmt)), Evolving (clauses scope select index list)
  | _, _, _, [] => by rw [clauses]; exact evolving_pure _
  | scope, select, index, ⟨test, body⟩ :: rest => by
      rw [clauses]
      apply (Evolving.mapM (fun _ => evolving_label _ _ _) test).bind
      intro label
      apply (evolving_hoisted scope fun inner => evolving_stmts inner body).bind
      intro body
      apply (evolving_clauses scope select (index + 1) rest).bind
      intro clauses
      exact evolving_pure _

end

/-! ## Functions -/

theorem evolving_functionBody (signature : String) (body : List Stmt) (releaseAtEnd isMain : Bool) :
    Evolving (functionBody signature body releaseAtEnd isMain) := by
  apply evolving_newFunction.bind
  intro scope
  apply (evolving_stmts scope body).bind
  intro statements
  apply (evolving_localsOf scope).bind
  intro locals
  cases releaseAtEnd with
  | true => exact (evolving_releases scope none).bind fun _ => evolving_pure _
  | false => exact (evolving_pure []).bind fun _ => evolving_pure _

theorem evolving_functions : ∀ list : List Function, Evolving (functions list)
  | [] => evolving_pure []
  | _ :: rest => (evolving_functionBody _ _ _ _).bind fun _ =>
      (evolving_functions rest).bind fun _ => evolving_pure _

end Emit

/-! ## Reachable trees -/

namespace ScopeTree

/-- The trees that scope operations and emitted statements lead to, in any order and with any names
and headers in between. A statement may also fail; what it did to the scopes stays done. -/
inductive Reachable : ScopeTree → Prop
  | empty : Reachable {}
  | operation {tree later : ScopeTree} : Reachable tree → Step tree later → Reachable later
  | statement {tree : ScopeTree} (σ : Setting) (names : Names) (headers : Headers)
      (scope : ScopeId) (s : Stmt) : Reachable tree →
      Reachable (Emit.stmt scope s σ ⟨tree, names, headers⟩).2.scopes

theorem Reachable.evolves {tree : ScopeTree} (reachable : Reachable tree) : Evolves {} tree := by
  induction reachable with
  | empty => exact .refl
  | operation _ step ih => exact ih.tail step
  | statement σ names headers scope s _ ih =>
    exact ih.trans (Emit.evolving_stmt scope s σ ⟨_, names, headers⟩).scopes

/-- Every reachable tree is well formed. -/
theorem Reachable.wellFormed {tree : ScopeTree} (reachable : Reachable tree) : tree.WellFormed :=
  reachable.evolves.wellFormed wellFormed_empty

end ScopeTree

end ScriptToC
