import ScriptToC.Proofs.Errors.Expressions
import ScriptToC.Proofs.Release.Plan

/-!
# Where statements fail

Emission gives up only on the source: on a type that is not known or on a construct that has no C
form, at a node of the statement (`located_stmt`). It never asks for a scope that does not exist.
The scope of a statement was there before, a new one is there from then on (`Located.opening`), and
no operation removes a scope; as the tree stays well formed, the plan of a scope can be found too.
-/

set_option autoImplicit false

namespace ScriptToC

open Ir

namespace Emit

variable {α β : Type} {spans : List Span}

/-! ## Steps in scopes -/

/-- A scope that exists stays. -/
theorem lt_size_of_evolves {w w' : Workspace} (evolves : w.Evolves w') {id : ScopeId}
    (isScope : id < w.scopes.size) : id < w'.scopes.size := by
  obtain ⟨scope, found⟩ := Option.isSome_iff_exists.1 ((ScopeTree.find?_isSome_iff _ _).2 isScope)
  obtain ⟨_, found', -, -⟩ := evolves.scopes.keeps found
  exact ScopeTree.lt_size_of_find? found'

/-- Where the tree is well formed and has these scopes, every error of the step lies at one of these
places. -/
def Located (spans : List Span) (scopes : List ScopeId) (m : EmitM α) : Prop :=
  ∀ (σ : Setting) (w : Workspace), w.scopes.WellFormed → (∀ id ∈ scopes, id < w.scopes.size) →
    ∀ cause : EmitError, (m σ w).1 = .error cause → cause.LiesIn spans

variable {scopes : List ScopeId} {scope : ScopeId}

/-- A step that cannot fail where its scopes exist. -/
theorem Located.of_ok {m : EmitM α} (succeeds : ∀ (σ : Setting) (w : Workspace),
    w.scopes.WellFormed → (∀ id ∈ scopes, id < w.scopes.size) → ∃ a w', m σ w = (.ok a, w')) :
    Located spans scopes m := by
  intro σ w wf exist cause failed
  obtain ⟨a, w', run⟩ := succeeds σ w wf exist
  rw [run] at failed
  cases failed

theorem Located.bind {m : EmitM α} {next : α → EmitM β} (first : Located spans scopes m)
    (evolving : Evolving m) (others : ∀ a, Located spans scopes (next a)) :
    Located spans scopes (m >>= next) := by
  intro σ w wf exist cause failed
  have evolves := evolving σ w
  rw [run_bind] at failed
  split at failed
  next a middle eq =>
    rw [eq] at evolves
    exact others a σ middle (evolves.scopes.wellFormed wf)
      (fun id member => lt_size_of_evolves evolves (exist id member)) cause failed
  next _ middle eq =>
    cases failed
    exact first σ w wf exist cause (congrArg Prod.fst eq)

theorem located_pure (a : α) : Located spans scopes (pure a : EmitM α) :=
  .of_ok fun _ w _ _ => ⟨a, w, rfl⟩

theorem located_read : Located spans scopes (read : EmitM Setting) :=
  .of_ok fun σ w _ _ => ⟨σ, w, rfl⟩

theorem located_get : Located spans scopes (get : EmitM Workspace) :=
  .of_ok fun _ w _ _ => ⟨w, w, rfl⟩

theorem evolving_get : Evolving (get : EmitM Workspace) :=
  .of_eq fun _ _ => rfl

theorem located_unsupported {span : Span} (here : span ∈ spans) (cause : Unsupported) :
    Located spans scopes (throw (.unsupported span cause) : EmitM α) := by
  intro σ w _ _ _ failed
  cases failed
  exact here

theorem located_expr {action : Types → ExprM α} (each : ∀ types, ExprLocated spans (action types)) :
    Located spans scopes (expr action) := by
  intro σ w _ _ cause failed
  obtain ⟨span, member, why, rfl⟩ := each σ.types w.headers cause failed
  exact member

theorem Located.map {m : EmitM α} (f : α → β) (step : Located spans scopes m)
    (evolving : Evolving m) : Located spans scopes (f <$> m) := by
  rw [map_eq_pure_bind]
  exact step.bind evolving fun a => located_pure (f a)

/-- A part that may be missing is emitted as an expression. -/
theorem located_part {part : Option Expr} {action : Expr → Types → ExprM α}
    (sub : partSpans part ⊆ spans)
    (each : ∀ (e : Expr) (types : Types), e.spans ⊆ spans → ExprLocated spans (action e types)) :
    Located spans scopes (part.mapM fun e => expr (action e)) := by
  cases part with
  | none => exact located_pure none
  | some e => exact (located_expr fun types => each e types sub).map some (evolving_expr _)

theorem located_typeOfNode {node : Node} (here : node.span ∈ spans) (what : Subject) :
    Located spans scopes (typeOfNode node what) := by
  apply located_read.bind evolving_read
  intro setting
  split
  · exact located_pure _
  · intro σ w _ _ _ failed
    cases failed
    exact here

theorem located_counter (id : NodeId) : Located spans scopes (counter id) :=
  .of_ok fun _ w _ _ => ⟨(w.names.counter id).1, _, rfl⟩

theorem located_temporary (id : NodeId) (hint : String) :
    Located spans scopes (temporary id hint) :=
  .of_ok fun _ w _ _ => ⟨(w.names.temporary id hint).1, _, rfl⟩

/-! ## Operations on scopes that exist -/

theorem exists_find? {tree : ScopeTree} {id : ScopeId} (isScope : id < tree.size) :
    ∃ found, tree.find? id = some found :=
  Option.isSome_iff_exists.1 ((ScopeTree.find?_isSome_iff tree id).2 isScope)

theorem exists_locals? {tree : ScopeTree} {id : ScopeId} (isScope : id < tree.size) :
    ∃ locals, tree.locals? id = some locals := by
  obtain ⟨found, eq⟩ := exists_find? isScope
  exact ⟨found.locals, ScopeTree.locals?_eq_some.2 ⟨found, eq, rfl⟩⟩

theorem exists_add? {tree : ScopeTree} {id : ScopeId} (isScope : id < tree.size) (x : Variable) :
    ∃ new later, tree.add? id x = some (new, later) ∧ later.size = tree.size := by
  obtain ⟨locals, found⟩ := exists_locals? isScope
  exact ⟨_, _, ScopeTree.add?_eq_some.2 ⟨locals, found, rfl, rfl⟩, ScopeTree.size_setLocals _ _ _⟩

theorem exists_extend? {tree : ScopeTree} {id : ScopeId} (isScope : id < tree.size)
    (xs : List Variable) : ∃ later, tree.extend? id xs = some later := by
  induction xs generalizing tree with
  | nil => exact ⟨tree, rfl⟩
  | cons x rest ih =>
    obtain ⟨_, middle, added, size⟩ := exists_add? isScope x
    obtain ⟨later, extended⟩ := @ih middle (size.symm ▸ isScope)
    refine ⟨later, ?_⟩
    rw [ScopeTree.extend?, added]
    exact extended

theorem located_declare (isScope : scope ∈ scopes) (x : Variable) :
    Located spans scopes (declare scope x) := by
  apply Located.of_ok
  intro σ w _ exist
  obtain ⟨new, later, added, -⟩ := exists_add? (exist scope isScope) x
  exact ⟨(), { w with scopes := later }, declare_ok.2 ⟨⟨new, added⟩, rfl, rfl⟩⟩

theorem located_localsOf (isScope : scope ∈ scopes) : Located spans scopes (localsOf scope) := by
  apply Located.of_ok
  intro σ w _ exist
  obtain ⟨locals, found⟩ := exists_locals? (exist scope isScope)
  exact ⟨locals, w, localsOf_ok.2 ⟨found, rfl⟩⟩

theorem located_releases (isScope : scope ∈ scopes) (returned : Option String) :
    Located spans scopes (releases scope returned) := by
  apply Located.of_ok
  intro σ w wf exist
  obtain ⟨list, _, plan, -⟩ := wf.releases?_eq_some (exist scope isScope) returned
  exact ⟨list, w, releases_ok.2 ⟨plan, rfl⟩⟩

/-- The locals of a scope can move to any other. -/
theorem located_hoist {inner : ScopeId} (isInner : inner ∈ scopes) (isScope : scope ∈ scopes) :
    Located spans scopes (hoist inner scope) := by
  apply Located.of_ok
  intro σ w _ exist
  obtain ⟨moved, found⟩ := exists_locals? (exist inner isInner)
  have drained := ScopeTree.drain?_eq_some.2 ⟨found, rfl⟩
  obtain ⟨later, extended⟩ := @exists_extend? (w.scopes.setLocals inner []) scope
    (by rw [ScopeTree.size_setLocals]; exact exist scope isScope) moved
  exact ⟨(), { w with scopes := later }, hoist_ok.2 ⟨⟨moved, _, drained, extended⟩, rfl, rfl⟩⟩

/-- What follows on a new scope may use it besides the others. -/
theorem Located.opening {m : EmitM ScopeId} {next : ScopeId → EmitM β}
    (opens : ∀ (σ : Setting) (w : Workspace), (∀ id ∈ scopes, id < w.scopes.size) →
      ∃ id w', m σ w = (.ok id, w') ∧ id < w'.scopes.size)
    (evolving : Evolving m) (others : ∀ id, Located spans (id :: scopes) (next id)) :
    Located spans scopes (m >>= next) := by
  intro σ w wf exist cause failed
  obtain ⟨inner, w', opened, isInner⟩ := opens σ w exist
  have evolves := evolving σ w
  rw [opened] at evolves
  rw [run_bind, opened] at failed
  refine others inner σ w' (evolves.scopes.wellFormed wf) ?_ cause failed
  intro id member
  rcases List.mem_cons.1 member with rfl | old
  · exact isInner
  · exact lt_size_of_evolves evolves (exist id old)

theorem newChild_opens (isScope : scope ∈ scopes) (σ : Setting) (w : Workspace)
    (exist : ∀ id ∈ scopes, id < w.scopes.size) :
    ∃ id w', newChild scope σ w = (.ok id, w') ∧ id < w'.scopes.size := by
  obtain ⟨found, eq⟩ := exists_find? (exist scope isScope)
  refine ⟨w.scopes.size, { w with scopes := _ },
    newChild_ok.2 ⟨ScopeTree.newChild?_eq_some.2 ⟨found, eq, rfl, rfl⟩, rfl, rfl⟩, ?_⟩
  rw [ScopeTree.size_push]
  exact Nat.lt_succ_self _

theorem newFunction_opens (σ : Setting) (w : Workspace) :
    ∃ id w', newFunction σ w = (.ok id, w') ∧ id < w'.scopes.size := by
  refine ⟨w.scopes.size, { w with scopes := _ }, newFunction_ok.2 ⟨rfl, rfl, rfl⟩, ?_⟩
  rw [ScopeTree.size_push]
  exact Nat.lt_succ_self _

/-! ## Parts of statements -/

section Parts

variable (isScope : scope ∈ scopes)
include isScope

theorem located_block {body : ScopeId → EmitM (List CStmt)}
    (evolving : ∀ inner, Evolving (body inner))
    (each : ∀ inner, Located spans (inner :: scopes) (body inner)) :
    Located spans scopes (block scope body) := by
  apply Located.opening (fun σ w exist => newChild_opens isScope σ w exist)
    (evolving_newChild scope)
  intro inner
  apply (each inner).bind (evolving inner)
  intro statements
  apply (located_localsOf List.mem_cons_self).bind (evolving_localsOf inner)
  intro locals
  exact located_pure _

theorem located_hoisted {body : ScopeId → EmitM (List CStmt)}
    (evolving : ∀ inner, Evolving (body inner))
    (each : ∀ inner, Located spans (inner :: scopes) (body inner)) :
    Located spans scopes (hoisted scope body) := by
  apply Located.opening (fun σ w exist => newChild_opens isScope σ w exist)
    (evolving_newChild scope)
  intro inner
  apply (each inner).bind (evolving inner)
  intro statements
  apply (located_hoist List.mem_cons_self (List.mem_cons_of_mem inner isScope)).bind
    (evolving_hoist inner scope)
  intro _
  exact located_pure _

theorem located_returned {value : Option Expr} (sub : partSpans value ⊆ spans) :
    Located spans scopes (returned scope value) := by
  apply (located_part sub fun e types sub => exprLocated_exprText types e sub).bind
    (Evolving.mapM (fun _ => evolving_expr _) value)
  intro text
  apply (located_releases isScope _).bind (evolving_releases scope _)
  intro plan
  exact located_pure _

theorem located_declarations {declarators : List Declarator}
    (sub : declarators.flatMap Declarator.spans ⊆ spans) :
    Located spans scopes (declarations scope declarators) := by
  induction declarators with
  | nil => exact located_pure []
  | cons declarator rest ih =>
    rw [List.flatMap_cons, List.append_subset, Declarator.spans, List.cons_subset] at sub
    obtain ⟨⟨here, inInit⟩, inRest⟩ := sub
    apply (located_typeOfNode here _).bind (evolving_typeOfNode _ _)
    intro type
    apply (located_declare isScope _).bind (evolving_declare scope _)
    intro _
    apply (located_part inInit fun e types sub => exprLocated_assignment types _ _ sub).bind
      (Evolving.mapM (fun _ => evolving_expr _) declarator.init)
    intro text
    apply (ih inRest).bind (evolving_declarations scope rest)
    intro _
    exact located_pure _

theorem located_binding {left : ForBinding} (sub : left.spans ⊆ spans) :
    Located spans scopes (binding scope left) := by
  cases left with
  | declare declarator =>
    rw [ForBinding.spans, Declarator.spans, List.cons_subset] at sub
    apply (located_typeOfNode sub.1 _).bind (evolving_typeOfNode _ _)
    intro type
    apply (located_declare isScope _).bind (evolving_declare scope _)
    intro _
    exact located_pure _
  | target e => exact located_expr fun types => exprLocated_placeText types e sub

theorem located_loopHead (id : NodeId) {left : ForBinding} {right : Expr}
    (inLeft : left.spans ⊆ spans) (inRight : right.spans ⊆ spans) :
    Located spans scopes (loopHead scope id left right) := by
  apply (located_counter id).bind (evolving_counter id)
  intro counter
  apply (located_declare isScope _).bind (evolving_declare scope _)
  intro _
  apply (located_expr fun types => exprLocated_exprText types right inRight).bind (evolving_expr _)
  intro text
  apply (located_binding isScope inLeft).bind (evolving_binding scope left)
  intro target
  exact located_pure _

omit isScope in
theorem located_expressionStatement {e : Expr} (sub : e.spans ⊆ spans) :
    Located spans scopes (expressionStatement e) := by
  unfold expressionStatement
  split
  next node target value =>
    rw [Expr.spans, List.cons_subset, List.append_subset] at sub
    obtain ⟨-, inTarget, inValue⟩ := sub
    apply located_read.bind evolving_read
    intro setting
    apply (located_expr fun types => exprLocated_placeText types target inTarget).bind
      (evolving_expr _)
    intro place
    exact located_expr fun types => exprLocated_assignment types _ _ inValue
  next =>
    exact (located_expr fun types => exprLocated_exprText types e sub).bind (evolving_expr _)
      fun _ => located_pure _

omit isScope in
theorem located_importHeader (path : String) : Located spans scopes (importHeader path) := by
  apply located_read.bind evolving_read
  intro setting
  split
  · exact located_expr fun _ => exprLocated_needs _
  · exact located_pure _

theorem located_selection (id : NodeId) {discriminant : Expr} (sub : discriminant.spans ⊆ spans) :
    Located spans scopes (selection scope id discriminant) := by
  apply located_read.bind evolving_read
  intro setting
  apply (located_expr fun types => exprLocated_exprText types discriminant sub).bind
    (evolving_expr _)
  intro subject
  split
  · exact located_pure _
  · apply (located_temporary id _).bind (evolving_temporary id _)
    intro name
    apply (located_declare isScope _).bind (evolving_declare scope _)
    intro _
    exact (located_expr fun _ => exprLocated_needs _).bind (evolving_expr _) fun _ => located_pure _

omit isScope in
theorem located_label (select : Selection) (index : Nat) {test : Option Expr}
    (sub : partSpans test ⊆ spans) : Located spans scopes (test.mapM (label select index)) := by
  cases test with
  | none => exact located_pure none
  | some e =>
    refine Located.map some ?_ (evolving_label select index e)
    apply (located_expr fun types => exprLocated_exprText types e sub).bind (evolving_expr _)
    intro text
    cases select <;> exact located_pure _

theorem located_loopStart {init : Option ForInit} (sub : startSpans init ⊆ spans) :
    Located spans scopes (loopStart scope init) := by
  rcases init with _ | (declarators | e)
  · exact located_pure _
  · exact (located_declarations isScope sub).bind (evolving_declarations scope declarators) fun _ =>
      located_pure _
  · exact (located_expr fun types => exprLocated_exprText types e sub).bind (evolving_expr _)
      fun _ => located_pure _

end Parts

/-! ## Statements -/

theorem evolving_body (scope : ScopeId) (body : List Stmt) :
    Evolving (block scope fun inner => stmts inner body) :=
  evolving_block scope fun inner => evolving_stmts inner body

mutual

/-- **Where a statement fails.** In a scope of a well-formed tree, emitting a statement fails at one
of its nodes. -/
theorem located_stmt : ∀ (s : Stmt) {scopes : List ScopeId} {scope : ScopeId}, scope ∈ scopes →
    s.spans ⊆ spans → Located spans scopes (stmt scope s)
  | .breakStmt _, _, _, _, _ => by rw [stmt]; exact located_pure _
  | .continueStmt _, _, _, _, _ => by rw [stmt]; exact located_pure _
  | .emptyStmt _, _, _, _, _ => by rw [stmt]; exact located_pure _
  | .returnStmt _ _, _, _, isScope, sub => by
      rw [stmt]
      rw [Stmt.spans, List.cons_subset] at sub
      exact located_returned isScope sub.2
  | .ifThen _ _ ⟨_, body⟩, _, scope, isScope, sub => by
      rw [stmt]
      rw [Stmt.spans, List.cons_subset, List.append_subset] at sub
      obtain ⟨-, inTest, inBody⟩ := sub
      apply (located_expr fun types => exprLocated_condition types inTest).bind (evolving_expr _)
      intro text
      apply (located_body body isScope inBody).bind (evolving_body scope body)
      intro block
      exact located_pure _
  | .ifElse _ _ ⟨_, body⟩ ⟨_, otherwise⟩, _, scope, isScope, sub => by
      rw [stmt]
      rw [Stmt.spans, List.cons_subset, List.append_subset, List.append_subset] at sub
      obtain ⟨-, inTest, inBody, inOther⟩ := sub
      apply (located_expr fun types => exprLocated_condition types inTest).bind (evolving_expr _)
      intro text
      apply (located_body body isScope inBody).bind (evolving_body scope body)
      intro block
      apply (located_body otherwise isScope inOther).bind (evolving_body scope otherwise)
      intro block
      exact located_pure _
  | .switchOn node discriminant list, _, scope, isScope, sub => by
      rw [stmt]
      rw [Stmt.spans, List.cons_subset, List.append_subset] at sub
      obtain ⟨-, inSubject, inList⟩ := sub
      apply (located_selection isScope node.id inSubject).bind
        (evolving_selection scope node.id discriminant)
      intro select
      apply (located_clauses list select 0 isScope inList).bind
        (evolving_clauses scope select 0 list)
      intro clauses
      exact located_pure _
  | .whileLoop _ _ ⟨_, body⟩, _, scope, isScope, sub => by
      rw [stmt]
      rw [Stmt.spans, List.cons_subset, List.append_subset] at sub
      obtain ⟨-, inTest, inBody⟩ := sub
      apply (located_expr fun types => exprLocated_condition types inTest).bind (evolving_expr _)
      intro text
      apply (located_body body isScope inBody).bind (evolving_body scope body)
      intro block
      exact located_pure _
  | .doLoop _ ⟨_, body⟩ _, _, scope, isScope, sub => by
      rw [stmt]
      rw [Stmt.spans, List.cons_subset, List.append_subset] at sub
      obtain ⟨-, inBody, inTest⟩ := sub
      apply (located_body body isScope inBody).bind (evolving_body scope body)
      intro block
      apply (located_expr fun types => exprLocated_condition types inTest).bind (evolving_expr _)
      intro text
      exact located_pure _
  | .forLoop _ init test update ⟨_, body⟩, _, scope, isScope, sub => by
      rw [stmt]
      rw [Stmt.spans, List.cons_subset, List.append_subset, List.append_subset,
        List.append_subset] at sub
      obtain ⟨-, inInit, inTest, inUpdate, inBody⟩ := sub
      apply (located_loopStart isScope inInit).bind (evolving_loopStart scope init)
      intro start
      apply (located_part inTest fun e types sub => exprLocated_condition types sub).bind
        (Evolving.mapM (fun _ => evolving_expr _) test)
      intro text
      apply (located_part inUpdate fun e types sub => exprLocated_exprText types e sub).bind
        (Evolving.mapM (fun _ => evolving_expr _) update)
      intro text
      apply (located_body body isScope inBody).bind (evolving_body scope body)
      intro block
      exact located_pure _
  | .forOf node left right body, _, scope, isScope, sub => by
      rw [stmt]
      rw [Stmt.spans, List.cons_subset, List.append_subset, List.append_subset] at sub
      obtain ⟨-, inLeft, inRight, inBody⟩ := sub
      have here : right.node.span ∈ spans := inRight right.span_mem_spans
      apply (located_typeOfNode here _).bind (evolving_typeOfNode _ _)
      intro type
      cases type with
      | array element capacity dynamic =>
          apply (located_loopHead isScope node.id inLeft inRight).bind
            (evolving_loopHead scope node.id left right)
          intro head
          have evolves : ∀ inner, Evolving (do return [← stmt inner body]) := by
            intro inner
            exact (evolving_stmt inner body).bind fun _ => evolving_pure _
          apply (located_hoisted isScope evolves fun inner =>
            (located_stmt body List.mem_cons_self inBody).bind (evolving_stmt inner body)
              fun _ => located_pure _).bind (evolving_hoisted scope evolves)
          intro body
          cases dynamic <;> exact located_pure _
      | _ => exact located_unsupported here _
  | .forIn node left right ⟨_, body⟩, _, scope, isScope, sub => by
      rw [stmt]
      rw [Stmt.spans, List.cons_subset, List.append_subset, List.append_subset] at sub
      obtain ⟨-, inLeft, inRight, inBody⟩ := sub
      have here : right.node.span ∈ spans := inRight right.span_mem_spans
      apply (located_typeOfNode here _).bind (evolving_typeOfNode _ _)
      intro type
      split
      · apply (located_loopHead isScope node.id inLeft inRight).bind
          (evolving_loopHead scope node.id left right)
        intro head
        apply (located_hoisted isScope (fun inner => evolving_stmts inner body) fun inner =>
          located_stmts body List.mem_cons_self inBody).bind
          (evolving_hoisted scope fun inner => evolving_stmts inner body)
        intro body
        exact located_pure _
      · exact located_unsupported here _
  | .expression _ e, _, _, _, sub => by
      rw [stmt]
      rw [Stmt.spans, List.cons_subset] at sub
      exact (located_expressionStatement sub.2).bind (evolving_expressionStatement e)
        fun _ => located_pure _
  | .block _ body, _, scope, isScope, sub => by
      rw [stmt]
      rw [Stmt.spans, List.cons_subset] at sub
      apply (located_body body isScope sub.2).bind (evolving_body scope body)
      intro block
      exact located_pure _
  | .importFrom _ path, _, _, _, _ => by
      rw [stmt]
      exact (located_importHeader path).bind (evolving_importHeader path) fun _ => located_pure _
  | .declaration _ declarators, _, scope, isScope, sub => by
      rw [stmt]
      rw [Stmt.spans, List.cons_subset] at sub
      exact (located_declarations isScope sub.2).bind (evolving_declarations scope declarators)
        fun _ => located_pure _

/-- A body in a new scope fails at one of its nodes. -/
theorem located_body : ∀ (body : List Stmt) {scopes : List ScopeId} {scope : ScopeId},
    scope ∈ scopes → rowSpans body ⊆ spans →
      Located spans scopes (block scope fun inner => stmts inner body)
  | body, _, _, isScope, sub =>
    located_block isScope (fun inner => evolving_stmts inner body) fun _ =>
      located_stmts body List.mem_cons_self sub

theorem located_stmts : ∀ (body : List Stmt) {scopes : List ScopeId} {scope : ScopeId},
    scope ∈ scopes → rowSpans body ⊆ spans → Located spans scopes (stmts scope body)
  | [], _, _, _, _ => by rw [stmts]; exact located_pure _
  | s :: rest, _, scope, isScope, sub => by
      rw [stmts]
      rw [rowSpans, List.append_subset] at sub
      apply (located_stmt s isScope sub.1).bind (evolving_stmt scope s)
      intro statement
      apply (located_stmts rest isScope sub.2).bind (evolving_stmts scope rest)
      intro statements
      exact located_pure _

theorem located_clauses : ∀ (list : List (Clause Stmt)) (select : Selection) (index : Nat)
    {scopes : List ScopeId} {scope : ScopeId}, scope ∈ scopes → clauseSpans list ⊆ spans →
      Located spans scopes (clauses scope select index list)
  | [], _, _, _, _, _, _ => by rw [clauses]; exact located_pure _
  | ⟨test, body⟩ :: rest, select, index, _, scope, isScope, sub => by
      rw [clauses]
      rw [clauseSpans, List.append_subset, List.append_subset] at sub
      obtain ⟨inTest, inBody, inRest⟩ := sub
      apply (located_label select index inTest).bind
        (Evolving.mapM (fun _ => evolving_label _ _ _) test)
      intro label
      apply (located_hoisted isScope (fun inner => evolving_stmts inner body) fun inner =>
        located_stmts body List.mem_cons_self inBody).bind
        (evolving_hoisted scope fun inner => evolving_stmts inner body)
      intro body
      apply (located_clauses rest select (index + 1) isScope inRest).bind
        (evolving_clauses scope select (index + 1) rest)
      intro clauses
      exact located_pure _

end

/-! ## Programs -/

theorem located_functionBody (signature : String) {body : List Stmt} (releaseAtEnd isMain : Bool)
    (sub : rowSpans body ⊆ spans) :
    Located spans scopes (functionBody signature body releaseAtEnd isMain) := by
  apply Located.opening (fun σ w _ => newFunction_opens σ w) evolving_newFunction
  intro scope
  apply (located_stmts body List.mem_cons_self sub).bind (evolving_stmts scope body)
  intro statements
  apply (located_localsOf List.mem_cons_self).bind (evolving_localsOf scope)
  intro locals
  cases releaseAtEnd with
  | true =>
    exact (located_releases List.mem_cons_self none).bind (evolving_releases scope none)
      fun _ => located_pure _
  | false => exact (located_pure []).bind (evolving_pure []) fun _ => located_pure _

theorem located_functions {list : List Function} (sub : list.flatMap Function.spans ⊆ spans) :
    Located spans scopes (functions list) := by
  induction list with
  | nil => exact located_pure []
  | cons first rest ih =>
    rw [List.flatMap_cons, List.append_subset, Function.spans, List.cons_subset] at sub
    apply (located_functionBody _ _ _ sub.1.2).bind (evolving_functionBody _ _ _ _)
    intro first
    apply (ih sub.2).bind (evolving_functions rest)
    intro rest
    exact located_pure _

/-- The file of a module fails at one of the nodes of the module. -/
theorem located_program (module : Module) : Located module.spans scopes (program module) := by
  have sub : module.spans ⊆ module.spans := List.Subset.refl _
  rw [Module.spans, List.append_subset] at sub
  apply (located_functions sub.1).bind (evolving_functions module.functions)
  intro functions
  apply (located_functionBody _ true true sub.2).bind (evolving_functionBody _ _ _ _)
  intro main
  apply located_get.bind evolving_get
  intro w
  have headers : ∀ list : List String, ExprLocated module.spans (list.forM needs) := by
    intro list
    induction list with
    | nil => exact exprLocated_pure ()
    | cons header rest ih => exact (exprLocated_needs header).bind fun _ => ih
  apply (located_expr fun _ => headers _).bind (evolving_expr _)
  intro _
  exact located_get.bind evolving_get fun _ => located_pure _

end Emit

end ScriptToC
