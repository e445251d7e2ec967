import Mathlib.Data.List.Basic
import Mathlib.Data.List.Induction
import ScriptToC.Proofs.Emission.Frame
import ScriptToC.Proofs.Hoisting.Introductions

/-!
# Which headers are registered

What is emitted successfully registers headers that can be read off the source, in a fixed order
(`Ir.Stmt.headers`, `Emits.headers_eq`): a null needs one, a text that is compared or measured
another, printing a third, and an import the one that it stands for. A header that is registered
again changes nothing, so the headers stand in the order of their first registrations
(`Headers.pairwise_registerAll`).
-/

set_option autoImplicit false

namespace ScriptToC

open Ir

/-! ## Several headers -/

namespace Headers

/-- The headers after some registrations. -/
def registerAll (headers : Headers) (log : List String) : Headers :=
  log.foldl register headers

@[simp] theorem registerAll_nil (headers : Headers) : headers.registerAll [] = headers :=
  rfl

@[simp] theorem registerAll_append (headers : Headers) (log more : List String) :
    headers.registerAll (log ++ more) = (headers.registerAll log).registerAll more :=
  List.foldl_append

theorem contains_registerAll (headers : Headers) (log : List String) (name : String) :
    (headers.registerAll log).contains name = true ↔
      name ∈ log ∨ headers.contains name = true := by
  induction log generalizing headers with
  | nil => simp
  | cons first rest ih =>
    rw [registerAll, List.foldl_cons, ← registerAll, ih, contains_register, Bool.or_eq_true,
      beq_iff_eq, List.mem_cons, or_left_comm, or_assoc]

theorem nodup_registerAll {headers : Headers} (nodup : headers.names.Nodup) (log : List String) :
    (headers.registerAll log).names.Nodup := by
  induction log generalizing headers with
  | nil => exact nodup
  | cons first rest ih => exact ih (nodup_register nodup first)

/-- The headers stand in the order of their first registrations. -/
theorem pairwise_registerAll (log : List String) :
    (registerAll {} log).names.Pairwise fun a b => log.idxOf a < log.idxOf b := by
  induction log using List.reverseRecOn with
  | nil => exact .nil
  | append_singleton log last ih =>
    have listed : ∀ {name}, name ∈ (registerAll {} log).names → name ∈ log := by
      intro name member
      have there := (contains_registerAll {} log name).1 (List.contains_iff_mem.2 member)
      exact there.resolve_right nofun
    -- The positions of the headers so far stay as they are.
    have kept : (registerAll {} log).names.Pairwise fun a b =>
        (log ++ [last]).idxOf a < (log ++ [last]).idxOf b := by
      refine ih.imp_of_mem ?_
      intro a b first second before
      rwa [List.idxOf_append_of_mem (listed first), List.idxOf_append_of_mem (listed second)]
    rw [registerAll_append, registerAll, List.foldl_cons, List.foldl_nil, register]
    split
    next => exact kept
    next new =>
      refine List.pairwise_append.2 ⟨kept, List.pairwise_singleton _ _, ?_⟩
      intro a first b isLast
      obtain rfl := List.mem_singleton.1 isLast
      have absent : b ∉ log := fun there =>
        new ((contains_registerAll {} log b).2 (.inl there))
      rw [List.idxOf_append_of_mem (listed first), List.idxOf_append_of_notMem absent]
      exact Nat.lt_of_lt_of_le (List.idxOf_lt_length_of_mem (listed first)) (Nat.le_add_right _ _)

end Headers

/-! ## Registrations in the source -/

namespace Ir

open Emit

section Headers

mutual

/-- The headers that an expression registers. -/
def Expr.headers (types : Types) : Expr → List String
  | .number .. | .string .. | .bool .. | .ident .. => []
  | .null _ => ["stdlib"]
  | .paren _ inner | .unary _ _ inner | .update _ _ _ inner => inner.headers types
  | .array _ elements => listHeaders types elements
  | .object _ properties => propertyHeaders types properties
  | .member _ object _ =>
    object.headers types ++ if (typeOf types object).isString then ["string"] else []
  | .index _ first second | .logical _ _ first second | .assign _ _ first second =>
    first.headers types ++ second.headers types
  | .call _ (.member _ object name) args =>
    if object.ident? = some "console" ∧ name = "log" then
      "stdio" :: listHeaders types args
    else
      object.headers types ++ listHeaders types args
  | .call _ _ args => listHeaders types args
  | .binary _ _ lhs rhs =>
    lhs.headers types ++ rhs.headers types ++
      if (typeOf types lhs).isString || (typeOf types rhs).isString then ["string"] else []
  | .conditional _ test yes no => test.headers types ++ yes.headers types ++ no.headers types

/-- The headers that expressions in a row register. -/
def listHeaders (types : Types) : List Expr → List String
  | [] => []
  | e :: rest => e.headers types ++ listHeaders types rest

/-- The headers that the values of properties register. -/
def propertyHeaders (types : Types) : List (String × Expr) → List String
  | [] => []
  | (_, e) :: rest => e.headers types ++ propertyHeaders types rest

end

/-- The headers that an expression registers, if it is there. -/
def partHeaders (types : Types) (part : Option Expr) : List String :=
  part.elim [] (Expr.headers types)

/-- The headers that the initializers of a declaration register. -/
def declaredHeaders (types : Types) (declarators : List Declarator) : List String :=
  declarators.flatMap fun declarator => partHeaders types declarator.init

/-- The headers that the start of a `for` loop registers. -/
def startHeaders (types : Types) : Option ForInit → List String
  | some (.declare declarators) => declaredHeaders types declarators
  | some (.evaluate e) => e.headers types
  | none => []

/-- The headers that the target of a loop over a collection registers. -/
def bindingHeaders (types : Types) : ForBinding → List String
  | .declare _ => []
  | .target e => e.headers types

mutual

/-- The headers that a statement registers. -/
def Stmt.headers (σ : Setting) : Stmt → List String
  | .breakStmt _ | .continueStmt _ | .emptyStmt _ => []
  | .returnStmt _ value => partHeaders σ.types value
  | .ifThen _ test ⟨_, body⟩ | .whileLoop _ test ⟨_, body⟩ =>
    test.headers σ.types ++ rowHeaders σ body
  | .ifElse _ test ⟨_, body⟩ ⟨_, otherwise⟩ =>
    test.headers σ.types ++ rowHeaders σ body ++ rowHeaders σ otherwise
  | .switchOn _ discriminant clauses =>
    discriminant.headers σ.types ++
      (if ((σ.types discriminant.id).getD .unknown).isNumber then [] else ["string"]) ++
        clauseHeaders σ clauses
  | .doLoop _ ⟨_, body⟩ test => rowHeaders σ body ++ test.headers σ.types
  | .forLoop _ init test update ⟨_, body⟩ =>
    startHeaders σ.types init ++ partHeaders σ.types test ++ partHeaders σ.types update ++
      rowHeaders σ body
  | .forOf _ left right body =>
    right.headers σ.types ++ bindingHeaders σ.types left ++ body.headers σ
  | .forIn _ left right ⟨_, body⟩ =>
    right.headers σ.types ++ bindingHeaders σ.types left ++ rowHeaders σ body
  | .expression _ e => e.headers σ.types
  | .block _ body => rowHeaders σ body
  | .importFrom _ path => (headerOf σ.includeMarker path).toList
  | .declaration _ declarators => declaredHeaders σ.types declarators

/-- The headers that statements in a row register. -/
def rowHeaders (σ : Setting) : List Stmt → List String
  | [] => []
  | first :: rest => first.headers σ ++ rowHeaders σ rest

/-- The headers that the clauses of a `switch` register. -/
def clauseHeaders (σ : Setting) : List (Clause Stmt) → List String
  | [] => []
  | ⟨test, body⟩ :: rest =>
    partHeaders σ.types test ++ rowHeaders σ body ++ clauseHeaders σ rest

end

end Headers

/-- The headers that the statements of a module register. -/
def Module.headers (σ : Setting) (module : Module) : List String :=
  module.bodies.flatMap (rowHeaders σ)

end Ir

/-! ## Expressions -/

namespace Emit

/-- If the step succeeds, it registers these headers. -/
def Registers {α : Type} (m : ExprM α) (log : List String) : Prop :=
  ∀ ⦃first last : Headers⦄ ⦃a : α⦄, m first = (.ok a, last) → last = first.registerAll log

section Steps

variable {α β : Type} {m : ExprM α} {next : α → ExprM β} {log more : List String}

theorem registers_pure (a : α) : Registers (pure a : ExprM α) [] := by
  intro _ _ _ run
  exact (exprM_pure_ok.1 run).2.symm

theorem Registers.bind (first : Registers m log) (second : ∀ a, Registers (next a) more) :
    Registers (m >>= next) (log ++ more) := by
  intro _ _ _ run
  obtain ⟨a, _, here, there⟩ := exprM_bind_ok.1 run
  rw [second a there, first here, Headers.registerAll_append]

/-- A step after which nothing is registered. -/
theorem Registers.last (first : Registers m log) (second : ∀ a, Registers (next a) []) :
    Registers (m >>= next) log := by
  have both := first.bind second
  rwa [List.append_nil] at both

theorem registers_needs (header : String) : Registers (needs header) [header] := by
  intro _ _ _ run
  cases run
  rfl

theorem registers_unsupported (span : Span) (cause : Unsupported) (log : List String) :
    Registers (unsupported span cause : ExprM α) log := by
  rintro _ _ _ ⟨⟩

theorem Registers.mapM {step : α → ExprM β} {log : α → List String} {list : List α}
    (each : ∀ a ∈ list, Registers (step a) (log a)) :
    Registers (list.mapM step) (list.flatMap log) := by
  induction list with
  | nil => exact registers_pure []
  | cons a rest ih =>
    rw [List.mapM_cons, List.flatMap_cons]
    refine (each a List.mem_cons_self).bind fun _ => Registers.last ?_ fun _ => registers_pure _
    exact ih fun other member => each other (List.mem_cons_of_mem _ member)

end Steps

variable {types : Types}

theorem listHeaders_eq (types : Types) (list : List Expr) :
    listHeaders types list = list.flatMap (Expr.headers types) := by
  induction list with
  | nil => rfl
  | cons e rest ih => rw [listHeaders, ih, List.flatMap_cons]

theorem propertyHeaders_eq (types : Types) (list : List (String × Expr)) :
    propertyHeaders types list = list.flatMap fun property => property.2.headers types := by
  induction list with
  | nil => rfl
  | cons property rest ih => rw [propertyHeaders, ih, List.flatMap_cons]

section Constructs

variable {e object key lhs rhs : Expr} {node : Node} {text keyText : ExprM String}
  {log more : List String}

theorem registers_conditionText (registers : Registers text log) :
    Registers (conditionText types e text) log := by
  refine registers.last fun _ => ?_
  split <;> exact registers_pure _

theorem registers_memberText (property : String) (registers : Registers text log) :
    Registers (memberText types node object property text)
      (log ++ if (typeOf types object).isString then ["string"] else []) := by
  refine registers.bind fun target => ?_
  cases typeOf types object with
  | array =>
    dsimp only
    split
    · exact registers_pure _
    · exact registers_unsupported _ _ _
  | string =>
    dsimp only
    split
    · exact (registers_needs "string").last fun _ => registers_pure _
    · exact registers_unsupported _ _ _
  | struct => exact registers_pure _
  | dict => exact registers_pure _
  | _ => exact registers_unsupported _ _ _

theorem registers_indexText (registers : Registers text log) (registers' : Registers keyText more) :
    Registers (indexText types node object key text keyText) (log ++ more) := by
  refine registers.bind fun target => registers'.last fun _ => ?_
  dsimp only
  split
  · exact registers_pure _
  · exact registers_pure _
  · exact registers_pure _
  · split
    · exact registers_pure _
    · exact registers_unsupported _ _ _
  · exact registers_unsupported _ _ _

theorem registers_binaryText (op : BinaryOp) (registers : Registers text log)
    (registers' : Registers keyText more) :
    Registers (binaryText types node op lhs rhs text keyText) (log ++ more ++
      if (typeOf types lhs).isString || (typeOf types rhs).isString then ["string"] else []) := by
  rw [List.append_assoc]
  refine registers.bind fun left => registers'.bind fun right => ?_
  split
  · cases op with
    | eq | ne => exact (registers_needs "string").last fun _ => registers_pure _
    | _ => exact registers_unsupported _ _ _
  · exact registers_pure _

end Constructs

section Arguments

variable {es : List Expr} (each : ∀ e ∈ es, Registers (exprText types e) (e.headers types))

include each

theorem registers_printText :
    Registers (printText types es (es.map (exprText types))) ("stdio" :: listHeaders types es) := by
  refine (registers_needs "stdio").bind fun _ => Registers.last ?_ fun _ => registers_pure _
  rw [listHeaders_eq, ← List.map_prod_left_eq_zip, List.mapM_map]
  refine Registers.mapM fun e isArg => (each e isArg).last fun _ => ?_
  split
  · exact registers_pure _
  · exact registers_pure _
  · exact registers_pure _
  · exact registers_unsupported _ _ _

theorem registers_callText (callee : Expr) :
    Registers (callText callee (es.map (exprText types))) (listHeaders types es) := by
  unfold callText
  split
  next => exact registers_unsupported _ _ _
  next =>
    rw [listHeaders_eq, List.mapM_map]
    exact (Registers.mapM each).last fun _ => registers_pure _

theorem registers_methodText {node : Node} {object : Expr} {name : String} {text : ExprM String}
    {log : List String} (registers : Registers text log) :
    Registers (methodText types node object name text (es.map (exprText types)))
      (log ++ listHeaders types es) := by
  unfold methodText
  dsimp only
  split
  next =>
    refine registers.bind fun _ => ?_
    split
    next value eq =>
      obtain ⟨arg, rfl, rfl⟩ := List.map_eq_singleton_iff.1 eq
      rw [listHeaders_eq, List.flatMap_singleton]
      exact (each arg List.mem_cons_self).last fun _ => registers_pure _
    next eq =>
      rw [List.map_eq_nil_iff] at eq
      subst eq
      exact registers_pure _
    · exact registers_unsupported _ _ _
  next => exact registers_unsupported _ _ _

end Arguments

mutual

/-- An expression registers its headers. -/
theorem registers_exprText : ∀ e : Expr, Registers (exprText types e) (e.headers types)
  | .number .. | .string .. | .bool .. | .ident .. => registers_pure _
  | .null _ => (registers_needs "stdlib").last fun _ => registers_pure _
  | .paren _ inner => by
      rw [exprText, Expr.headers]
      exact (registers_exprText inner).last fun _ => registers_pure _
  | .array .. | .object .. => by
      rw [exprText]
      exact registers_unsupported _ _ _
  | .member _ object property => by
      rw [exprText, Expr.headers]
      exact registers_memberText property (registers_exprText object)
  | .index _ object key => by
      rw [exprText, Expr.headers]
      exact registers_indexText (registers_exprText object) (registers_exprText key)
  | .call _ callee args => by
      have each := registers_exprTexts args
      cases callee with
      | member _ object name =>
          rw [exprText, Expr.headers, exprTexts_eq_map]
          split
          · exact registers_printText each
          · exact registers_methodText each (registers_exprText object)
      | _ =>
          rw [exprText, Expr.headers, exprTexts_eq_map]
          · exact registers_callText each _
          all_goals nofun
  | .unary _ op arg => by
      rw [Expr.headers]
      cases op with
      | not =>
          rw [exprText]
          exact (registers_conditionText (registers_exprText arg)).last fun _ => registers_pure _
      | _ =>
          rw [exprText]
          exact (registers_exprText arg).last fun _ => registers_pure _
  | .update _ _ _ target => by
      rw [exprText, Expr.headers]
      exact (registers_placeText target).last fun _ => registers_pure _
  | .binary _ op lhs rhs => by
      rw [exprText, Expr.headers]
      exact registers_binaryText op (registers_exprText lhs) (registers_exprText rhs)
  | .logical _ _ lhs rhs => by
      rw [exprText, Expr.headers]
      refine (registers_conditionText (registers_exprText lhs)).bind fun _ => ?_
      exact (registers_conditionText (registers_exprText rhs)).last fun _ => registers_pure _
  | .assign _ _ target value => by
      rw [exprText, Expr.headers]
      refine (registers_placeText target).bind fun _ => ?_
      exact (registers_exprText value).last fun _ => registers_pure _
  | .conditional _ test yes no => by
      rw [exprText, Expr.headers, List.append_assoc]
      refine (registers_conditionText (registers_exprText test)).bind fun _ => ?_
      refine (registers_exprText yes).bind fun _ => ?_
      exact (registers_exprText no).last fun _ => registers_pure _

/-- A place registers the headers of its expression. -/
theorem registers_placeText : ∀ e : Expr, Registers (placeText types e) (e.headers types)
  | .ident .. => registers_pure _
  | .paren _ inner => by
      rw [placeText, Expr.headers]
      exact registers_placeText inner
  | .member _ object property => by
      rw [placeText, Expr.headers]
      exact registers_memberText property (registers_exprText object)
  | .index _ object key => by
      rw [placeText, Expr.headers]
      exact registers_indexText (registers_exprText object) (registers_exprText key)
  | .number .. | .string .. | .bool .. | .null _ | .array .. | .object .. | .call .. | .unary ..
  | .update .. | .binary .. | .logical .. | .assign .. | .conditional .. => by
      rw [placeText]
      · exact registers_unsupported _ _ _
      all_goals nofun

theorem registers_exprTexts : ∀ es : List Expr, ∀ e ∈ es,
    Registers (exprText types e) (e.headers types)
  | [] => nofun
  | e :: rest => List.forall_mem_cons.2 ⟨registers_exprText e, registers_exprTexts rest⟩

end

/-- An assignment registers the headers of its value. -/
theorem registers_assignment (target : String) (type : Option CType) (value : Expr) :
    Registers (assignment types target type value) (value.headers types) := by
  unfold assignment
  split
  next node elements element capacity dynamic =>
    split
    · exact registers_unsupported _ _ _
    · refine Registers.last ?_ fun _ => registers_pure _
      refine Registers.last ?_ fun _ => registers_pure _
      have same : elements.zipIdx.flatMap (fun entry => entry.1.headers types) =
          elements.flatMap (Expr.headers types) := by
        rw [← List.flatMap_map Prod.fst, List.zipIdx_map_fst]
      rw [Expr.headers, listHeaders_eq, ← same]
      exact Registers.mapM fun entry _ =>
        (registers_exprText entry.1).last fun _ => registers_pure _
  next node properties element =>
    refine Registers.last ?_ fun _ => registers_pure _
    refine Registers.last ?_ fun _ => registers_pure _
    rw [Expr.headers, propertyHeaders_eq]
    exact Registers.mapM fun property _ =>
      (registers_exprText property.2).last fun _ => registers_pure _
  next => exact registers_unsupported _ _ _
  next => exact registers_unsupported _ _ _
  next => exact registers_unsupported _ _ _
  next => exact registers_unsupported _ _ _
  next => exact (registers_exprText value).last fun _ => registers_pure _

/-! ## Parts of statements -/

section Parts

variable {σ : Setting} {scope : ScopeId} {w w' : Workspace}

/-- What an expression registers is all that changes the headers when it is emitted. -/
theorem headers_of_expr {α : Type} {action : Types → ExprM α} {a : α} {log : List String}
    (run : expr action σ w = (.ok a, w')) (registers : Registers (action σ.types) log) :
    w'.headers = w.headers.registerAll log := by
  unfold expr at run
  rcases eq : action σ.types w.headers with ⟨result, headers⟩
  rw [eq] at run
  obtain ⟨rfl, rfl⟩ := Prod.mk.inj run
  exact registers eq

/-- An expression that may be left out. -/
theorem headers_of_part {α : Type} {part : Option Expr} {result : Option α}
    {action : Expr → Types → ExprM α}
    (each : ∀ e, Registers (action e σ.types) (e.headers σ.types))
    (run : part.mapM (fun e => expr (action e)) σ w = (.ok result, w')) :
    w'.headers = w.headers.registerAll (partHeaders σ.types part) := by
  rcases mapM_option_ok.1 run with ⟨rfl, -, rfl⟩ | ⟨e, _, rfl, -, run⟩
  · rfl
  · exact headers_of_expr run (each e)

theorem headers_returned {value : Option Expr} {c : CStmt}
    (run : returned scope value σ w = (.ok c, w')) :
    w'.headers = w.headers.registerAll (partHeaders σ.types value) := by
  simp only [returned, bind_ok, releases_ok, pure_ok] at run
  obtain ⟨_, _, read, _, _, ⟨-, rfl⟩, -, rfl⟩ := run
  exact headers_of_part registers_exprText read

theorem headers_declarations : ∀ {declarators : List Declarator} {w w' : Workspace}
    {list : List Assignment}, declarations scope declarators σ w = (.ok list, w') →
      w'.headers = w.headers.registerAll (declaredHeaders σ.types declarators)
  | [], _, _, _, run => by
      rw [declarations, pure_ok] at run
      obtain ⟨-, rfl⟩ := run
      rfl
  | declarator :: rest, _, _, _, run => by
      simp only [declarations, bind_ok, typeOfNode_ok, pure_ok] at run
      obtain ⟨_, _, ⟨-, rfl⟩, _, _, declared, _, _, init, _, _, others, -, rfl⟩ := run
      have same := (declare_ok.1 declared).2.2
      have first := headers_of_part (fun e => registers_assignment _ _ e) init
      rw [declaredHeaders, List.flatMap_cons, Headers.registerAll_append, ← same, ← first]
      exact headers_declarations others

theorem headers_loopHead {id : NodeId} {left : ForBinding} {right : Expr}
    {found : String × String × String}
    (run : loopHead scope id left right σ w = (.ok found, w')) :
    w'.headers = w.headers.registerAll (right.headers σ.types ++ bindingHeaders σ.types left) := by
  simp only [loopHead, bind_ok, counter_ok, pure_ok] at run
  obtain ⟨_, _, ⟨-, -, same⟩, _, _, declared, _, _, read, _, _, bound, -, rfl⟩ := run
  rw [Headers.registerAll_append, ← same, ← (declare_ok.1 declared).2.2,
    ← headers_of_expr read (registers_exprText right)]
  cases left with
  | declare declarator =>
    simp only [binding, bind_ok, typeOfNode_ok, pure_ok] at bound
    obtain ⟨_, _, ⟨-, rfl⟩, _, _, declared, -, rfl⟩ := bound
    exact (declare_ok.1 declared).2.2
  | target e =>
    rw [binding] at bound
    exact headers_of_expr bound (registers_placeText e)

theorem headers_expressionStatement {e : Expr} {a : Assignment}
    (run : expressionStatement e σ w = (.ok a, w')) :
    w'.headers = w.headers.registerAll (e.headers σ.types) := by
  unfold expressionStatement at run
  split at run
  next node target value =>
    simp only [bind_ok, read_bind] at run
    obtain ⟨place, _, first, run⟩ := run
    rw [Expr.headers, Headers.registerAll_append,
      ← headers_of_expr first (registers_placeText target)]
    exact headers_of_expr run (registers_assignment _ _ value)
  next =>
    simp only [bind_ok, pure_ok] at run
    obtain ⟨_, _, run, -, rfl⟩ := run
    exact headers_of_expr run (registers_exprText e)

theorem headers_importHeader {path : String} (run : importHeader path σ w = (.ok (), w')) :
    w'.headers = w.headers.registerAll (headerOf σ.includeMarker path).toList := by
  rw [importHeader, read_bind] at run
  cases found : headerOf σ.includeMarker path with
  | some header =>
    rw [found] at run
    exact headers_of_expr run (registers_needs header)
  | none =>
    rw [found] at run
    obtain ⟨-, rfl⟩ := pure_ok.1 run
    rfl

theorem headers_selection {id : NodeId} {discriminant : Expr} {select : Selection}
    (run : selection scope id discriminant σ w = (.ok select, w')) :
    w'.headers = w.headers.registerAll (discriminant.headers σ.types ++
      if ((σ.types discriminant.id).getD .unknown).isNumber then [] else ["string"]) := by
  rw [selection, read_bind, bind_ok] at run
  obtain ⟨subject, _, read, run⟩ := run
  have first := headers_of_expr read (registers_exprText discriminant)
  rw [Headers.registerAll_append, ← first]
  split at run
  next isNumber =>
    rw [pure_ok] at run
    obtain ⟨-, rfl⟩ := run
    rw [if_pos isNumber, Headers.registerAll_nil]
  next notNumber =>
    simp only [bind_ok, temporary_ok, pure_ok] at run
    obtain ⟨_, _, ⟨-, -, same⟩, _, _, declared, _, _, needed, -, rfl⟩ := run
    rw [if_neg notNumber, ← same, ← (declare_ok.1 declared).2.2]
    exact headers_of_expr needed (registers_needs "string")

theorem headers_label {select : Selection} {index : Nat} {test : Option Expr}
    {found : Option (String × List String)}
    (run : test.mapM (label select index) σ w = (.ok found, w')) :
    w'.headers = w.headers.registerAll (partHeaders σ.types test) := by
  rcases mapM_option_ok.1 run with ⟨rfl, -, rfl⟩ | ⟨e, _, rfl, -, run⟩
  · rfl
  · rw [label, bind_ok] at run
    obtain ⟨_, _, read, run⟩ := run
    have first := headers_of_expr read (registers_exprText e)
    split at run
    all_goals
      obtain ⟨-, rfl⟩ := pure_ok.1 run
      exact first

theorem headers_loopStart {init : Option ForInit} {found : Option (List Assignment) × String}
    (run : loopStart scope init σ w = (.ok found, w')) :
    w'.headers = w.headers.registerAll (startHeaders σ.types init) := by
  match init with
  | some (.declare declarators) =>
    simp only [loopStart, bind_ok, pure_ok] at run
    obtain ⟨_, _, declares, -, rfl⟩ := run
    exact headers_declarations declares
  | some (.evaluate e) =>
    simp only [loopStart, bind_ok, pure_ok] at run
    obtain ⟨_, _, read, -, rfl⟩ := run
    exact headers_of_expr read (registers_exprText e)
  | none =>
    rw [loopStart, pure_ok] at run
    obtain ⟨-, rfl⟩ := run
    rfl

end Parts

/-! ## Statements -/

variable {σ : Setting}

mutual

/-- **What a statement registers.** The headers after a statement are those before it and those that
it registers. -/
theorem Emits.headers_eq : ∀ {scope : ScopeId} {s : Stmt} {w w' : Workspace} {c : CStmt}
    {xs : List Variable}, Emits σ scope s w c xs w' →
      w'.headers = w.headers.registerAll (s.headers σ)
  | _, _, _, _, _, _, .breakStmt .. | _, _, _, _, _, _, .continueStmt ..
  | _, _, _, _, _, _, .emptyStmt .. => rfl
  | _, _, _, _, _, _, .returnStmt run => headers_returned run
  | _, _, _, _, _, _, .ifThen head yes => by
      rw [Stmt.headers, Headers.registerAll_append,
        ← headers_of_expr head (registers_conditionText (registers_exprText _)), yes.headers_eq]
  | _, _, _, _, _, _, .ifElse head yes no => by
      rw [Stmt.headers, Headers.registerAll_append, Headers.registerAll_append,
        ← headers_of_expr head (registers_conditionText (registers_exprText _)), ← yes.headers_eq,
        no.headers_eq]
  | _, _, _, _, _, _, .switchOn head each => by
      rw [Stmt.headers, Headers.registerAll_append, ← headers_selection head, each.headers_eq]
  | _, _, _, _, _, _, .whileLoop head loop => by
      rw [Stmt.headers, Headers.registerAll_append,
        ← headers_of_expr head (registers_conditionText (registers_exprText _)), loop.headers_eq]
  | _, _, _, _, _, _, .doLoop loop last => by
      rw [Stmt.headers, Headers.registerAll_append, ← loop.headers_eq,
        headers_of_expr last (registers_conditionText (registers_exprText _))]
  | _, _, _, _, _, _, .forLoop start head step loop => by
      have tested := headers_of_part (fun e => registers_conditionText (registers_exprText e)) head
      have updated := headers_of_part registers_exprText step
      rw [Stmt.headers, Headers.registerAll_append, Headers.registerAll_append,
        Headers.registerAll_append, ← headers_loopStart start, ← tested, ← updated, loop.headers_eq]
  | _, _, _, _, _, _, .forOf _ head loop => by
      have inside := loop.headers_eq
      rw [rowHeaders, rowHeaders, List.append_nil] at inside
      rw [Stmt.headers, Headers.registerAll_append, ← headers_loopHead head, inside]
  | _, _, _, _, _, _, .forIn _ _ head loop => by
      rw [Stmt.headers, Headers.registerAll_append, ← headers_loopHead head, loop.headers_eq]
  | _, _, _, _, _, _, .expression run => headers_expressionStatement run
  | _, _, _, _, _, _, .block inner => inner.headers_eq
  | _, _, _, _, _, _, .importFrom run => headers_importHeader run
  | _, _, _, _, _, _, .declaration run => headers_declarations run

theorem EmitsAll.headers_eq : ∀ {scope : ScopeId} {body : List Stmt} {w w' : Workspace}
    {cs : List CStmt} {xs : List Variable}, EmitsAll σ scope body w cs xs w' →
      w'.headers = w.headers.registerAll (rowHeaders σ body)
  | _, _, _, _, _, _, .nil .. => rfl
  | _, _, _, _, _, _, .cons first others => by
      rw [rowHeaders, Headers.registerAll_append, ← first.headers_eq, others.headers_eq]

theorem EmitsBlock.headers_eq : ∀ {scope : ScopeId} {body : List Stmt} {w w' : Workspace}
    {b : Block CStmt}, EmitsBlock σ scope body w b w' →
      w'.headers = w.headers.registerAll (rowHeaders σ body)
  | _, _, _, _, _, .intro opened all _ => by
      rw [all.headers_eq, (newChild_ok.1 opened).2.2]

theorem EmitsHoisted.headers_eq : ∀ {scope : ScopeId} {body : List Stmt} {w w' : Workspace}
    {cs : List CStmt} {xs : List Variable}, EmitsHoisted σ scope body w cs xs w' →
      w'.headers = w.headers.registerAll (rowHeaders σ body)
  | _, _, _, _, _, _, .intro opened all moved => by
      rw [(hoist_ok.1 moved).2.2, all.headers_eq, (newChild_ok.1 opened).2.2]

theorem EmitsClauses.headers_eq : ∀ {scope : ScopeId} {select : Selection} {index : Nat}
    {list : List (Clause Stmt)} {w w' : Workspace} {comparisons : List String}
    {cases : List CStmt} {xs : List Variable},
    EmitsClauses σ scope select index list w comparisons cases xs w' →
      w'.headers = w.headers.registerAll (clauseHeaders σ list)
  | _, _, _, _, _, _, _, _, _, .nil .. => rfl
  | _, _, _, _, _, _, _, _, _, .cons head first others => by
      rw [clauseHeaders, Headers.registerAll_append, Headers.registerAll_append,
        ← headers_label head, ← first.headers_eq, others.headers_eq]

end

/-! ## Modules -/

theorem headers_functionBody {signature : String} {body : List Stmt} {releaseAtEnd isMain : Bool}
    {g : CFunction} {w w' : Workspace}
    (run : functionBody signature body releaseAtEnd isMain σ w = (.ok g, w')) :
    w'.headers = w.headers.registerAll (rowHeaders σ body) := by
  obtain ⟨_, _, _, opened, all, -⟩ := emits_functionBody run
  rw [all.headers_eq, (newFunction_ok.1 opened).2.2]

theorem headers_functions : ∀ {list : List Function} {gs : List CFunction} {w w' : Workspace},
    functions list σ w = (.ok gs, w') →
      w'.headers = w.headers.registerAll ((list.map (·.body)).flatMap (rowHeaders σ))
  | [], _, _, _, run => by
      rw [functions, pure_ok] at run
      obtain ⟨-, rfl⟩ := run
      rfl
  | f :: rest, _, _, _, run => by
      simp only [functions, bind_ok, pure_ok] at run
      obtain ⟨_, _, first, _, _, others, -, rfl⟩ := run
      rw [List.map_cons, List.flatMap_cons, Headers.registerAll_append,
        ← headers_functionBody first, headers_functions others]

end Emit

end ScriptToC
