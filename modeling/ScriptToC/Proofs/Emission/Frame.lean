import ScriptToC.Proofs.Emission.Rules
import ScriptToC.Proofs.Scope.Operations

/-!
# What a statement leaves alone

A statement that is emitted in a scope introduces locals in this scope and in new ones. Of the
scopes that were there before, every other one keeps its locals (`Emits.frame`). A block declares
exactly what its statements introduce, and the locals of a clause or of a loop over a collection are
introduced in the scope around them, as if they had been there from the start.
-/

set_option autoImplicit false

namespace ScriptToC

namespace ScopeTree

/-! ## Introducing locals -/

/-- The locals with others after them, except those whose names are declared already. -/
def introduce (locals xs : List Variable) : List Variable :=
  xs.foldl declare locals

theorem introduce_append (locals xs ys : List Variable) :
    introduce locals (xs ++ ys) = introduce (introduce locals xs) ys :=
  List.foldl_append

theorem any_name_iff {locals : List Variable} {name : String} :
    locals.any (·.name == name) = true ↔ name ∈ locals.map (·.name) := by
  simp [List.any_eq_true, List.mem_map]

theorem mem_names_declare {locals : List Variable} {x : Variable} {name : String} :
    name ∈ (declare locals x).map (·.name) ↔ name ∈ locals.map (·.name) ∨ name = x.name := by
  rw [declare]
  split
  next old =>
    constructor
    · exact .inl
    · rintro (known | rfl)
      · exact known
      · exact any_name_iff.1 old
  next => simp [or_comm, eq_comm]

theorem mem_names_introduce {locals xs : List Variable} {name : String} :
    name ∈ (introduce locals xs).map (·.name) ↔
      name ∈ locals.map (·.name) ∨ name ∈ xs.map (·.name) := by
  induction xs generalizing locals with
  | nil => simp [introduce]
  | cons x rest ih =>
    rw [introduce, List.foldl_cons, ← introduce, ih, mem_names_declare, List.map_cons,
      List.mem_cons, or_assoc]

theorem introduce_declare (locals base : List Variable) (x : Variable) :
    introduce locals (declare base x) = declare (introduce locals base) x := by
  rw [declare]
  split
  next old =>
    have known : x.name ∈ (introduce locals base).map (·.name) :=
      mem_names_introduce.2 (.inr (any_name_iff.1 old))
    rw [declare, if_pos (any_name_iff.2 known)]
  next => rw [introduce_append]; rfl

/-- Locals that were introduced elsewhere first are introduced as if they came directly. -/
theorem introduce_introduce (locals base xs : List Variable) :
    introduce locals (introduce base xs) = introduce (introduce locals base) xs := by
  induction xs generalizing base with
  | nil => rfl
  | cons x rest ih =>
    have step := ih (declare base x)
    rw [introduce_declare] at step
    exact step

theorem introduce_eq_nil {xs : List Variable} : introduce [] xs = [] ↔ xs = [] := by
  constructor
  · intro empty
    cases xs with
    | nil => rfl
    | cons x rest =>
      have known : x.name ∈ (introduce [] (x :: rest)).map (·.name) :=
        mem_names_introduce.2 (.inr List.mem_cons_self)
      rw [empty] at known
      cases known
  · rintro rfl
    rfl

/-! ## Frames -/

/-- What one scope got and the other scopes kept. -/
structure Frame (scope : ScopeId) (xs : List Variable) (before after : ScopeTree) : Prop where
  grows : before.size ≤ after.size
  own : ∀ {locals : List Variable}, before.locals? scope = some locals →
    after.locals? scope = some (introduce locals xs)
  others : ∀ {id : ScopeId}, id < before.size → id ≠ scope → after.locals? id = before.locals? id

theorem Frame.refl (scope : ScopeId) (tree : ScopeTree) : Frame scope [] tree tree where
  grows := Nat.le_refl _
  own := id
  others := fun _ _ => rfl

theorem Frame.trans {scope : ScopeId} {xs ys : List Variable} {first second third : ScopeTree}
    (frame : Frame scope xs first second) (frame' : Frame scope ys second third) :
    Frame scope (xs ++ ys) first third where
  grows := Nat.le_trans frame.grows frame'.grows
  own := by
    intro locals found
    rw [introduce_append]
    exact frame'.own (frame.own found)
  others := by
    intro id old different
    rw [frame'.others (Nat.lt_of_lt_of_le old frame.grows) different, frame.others old different]

theorem locals?_setLocals (tree : ScopeTree) (id other : ScopeId) (locals : List Variable) :
    (tree.setLocals id locals).locals? other =
      if other = id then (tree.locals? other).map fun _ => locals else tree.locals? other := by
  rw [locals?, find?_setLocals, locals?]
  split
  · rw [Option.map_map, Option.map_map]
    rfl
  · rfl

theorem lt_size_of_locals? {tree : ScopeTree} {id : ScopeId} {locals : List Variable}
    (found : tree.locals? id = some locals) : id < tree.size := by
  obtain ⟨scope, isScope, -⟩ := Option.map_eq_some_iff.1 found
  exact lt_size_of_find? isScope

theorem frame_add {tree later : ScopeTree} {scope : ScopeId} {x : Variable} {new : Bool}
    (added : tree.add? scope x = some (new, later)) : Frame scope [x] tree later := by
  obtain ⟨locals, found, -, rfl⟩ := add?_eq_some.1 added
  constructor
  · exact Nat.le_of_eq (size_setLocals _ _ _).symm
  · intro locals' found'
    rw [found] at found'
    cases found'
    rw [locals?_setLocals, if_pos rfl, found]
    rfl
  · intro id _ different
    rw [locals?_setLocals, if_neg different]

theorem frame_extend {tree later : ScopeTree} {scope : ScopeId} {xs : List Variable}
    (extended : tree.extend? scope xs = some later) : Frame scope xs tree later := by
  induction xs generalizing tree with
  | nil =>
    cases extended
    exact .refl scope _
  | cons x rest ih =>
    simp only [extend?, Option.bind_eq_bind, Option.bind_eq_some_iff] at extended
    obtain ⟨⟨_, middle⟩, added, extended⟩ := extended
    exact (frame_add added).trans (ih extended)

/-- A new child has no locals, and every scope keeps its own. -/
theorem frame_newChild {tree later : ScopeTree} {parent id scope : ScopeId}
    (made : tree.newChild? parent = some (id, later)) (old : scope < tree.size) :
    id = tree.size ∧ later.locals? id = some [] ∧ Frame scope [] tree later := by
  obtain ⟨outer, _, rfl, rfl⟩ := newChild?_eq_some.1 made
  have keeps : ∀ {other : ScopeId}, other < tree.size →
      (ScopeTree.mk (tree.scopes ++ [⟨some parent, outer.func, []⟩])).locals? other =
        tree.locals? other := by
    intro other small
    rw [locals?, find?_push, if_neg (Nat.ne_of_lt small)]
    rfl
  refine ⟨rfl, ?_, ?_⟩
  · rw [locals?, find?_push, if_pos rfl]
    rfl
  · constructor
    · rw [size_push]
      exact Nat.le_succ _
    · intro locals found
      rw [keeps old]
      exact found
    · intro id small _
      exact keeps small

/-- What happens in a new scope leaves the scopes before it alone. -/
theorem Frame.inside {scope inner : ScopeId} {xs : List Variable} {first second third : ScopeTree}
    (frame : Frame scope [] first second) (fresh : inner = first.size)
    (frame' : Frame inner xs second third) (old : scope < first.size) :
    Frame scope [] first third where
  grows := Nat.le_trans frame.grows frame'.grows
  own := by
    intro locals found
    have different : scope ≠ inner := fresh ▸ Nat.ne_of_lt old
    rw [frame'.others (Nat.lt_of_lt_of_le old frame.grows) different]
    exact frame.own found
  others := by
    intro id small different
    have notInner : id ≠ inner := fresh ▸ Nat.ne_of_lt small
    rw [frame'.others (Nat.lt_of_lt_of_le small frame.grows) notInner]
    exact frame.others small different

/-- The locals that a new scope got move to the scope around it. -/
theorem Frame.hoist {scope inner : ScopeId} {xs moved : List Variable}
    {first second third fourth fifth : ScopeTree} (frame : Frame scope [] first second)
    (fresh : inner = first.size) (empty : second.locals? inner = some [])
    (frame' : Frame inner xs second third) (drained : third.drain? inner = some (moved, fourth))
    (extended : fourth.extend? scope moved = some fifth) (old : scope < first.size) :
    Frame scope xs first fifth := by
  have inside := frame.inside fresh frame' old
  have last := frame_extend extended
  have different : scope ≠ inner := fresh ▸ Nat.ne_of_lt old
  obtain ⟨found, rfl⟩ := drain?_eq_some.1 drained
  have all : moved = introduce [] xs := Option.some.inj (found.symm.trans (frame'.own empty))
  have size : (third.setLocals inner []).size = third.size := size_setLocals _ _ _
  constructor
  · have grows := inside.grows
    rw [← size] at grows
    exact Nat.le_trans grows last.grows
  · intro locals known
    have kept : (third.setLocals inner []).locals? scope = some locals := by
      rw [locals?_setLocals, if_neg different]
      exact inside.own known
    rw [last.own kept, all, introduce_introduce]
    rfl
  · intro id small other
    have small' : id < (third.setLocals inner []).size := by
      rw [size]
      exact Nat.lt_of_lt_of_le small inside.grows
    rw [last.others small' other, locals?_setLocals, if_neg (fresh ▸ Nat.ne_of_lt small)]
    exact inside.others small other

end ScopeTree

/-! ## Frames of emission -/

namespace Emit

open Ir ScopeTree

variable {σ : Setting} {scope : ScopeId} {before after : Workspace}

theorem frame_declare {x : Variable} (run : declare scope x σ before = (.ok (), after)) :
    Frame scope [x] before.scopes after.scopes := by
  obtain ⟨⟨_, added⟩, -, -⟩ := declare_ok.1 run
  exact frame_add added

theorem frame_expr (scope : ScopeId) {α : Type} {action : Types → ExprM α} {a : α}
    (run : expr action σ before = (.ok a, after)) :
    Frame scope [] before.scopes after.scopes := by
  rw [(expr_ok run).1]
  exact .refl scope before.scopes

theorem frame_mapM {α β : Type} {action : α → Types → ExprM β} {part : Option α}
    {result : Option β}
    (run : part.mapM (fun a => expr (action a)) σ before = (.ok result, after)) :
    Frame scope [] before.scopes after.scopes := by
  rcases mapM_option_ok.1 run with ⟨-, -, rfl⟩ | ⟨_, _, -, -, run⟩
  · exact .refl _ _
  · exact frame_expr scope run

theorem frame_returned {value : Option Expr} {c : CStmt}
    (run : returned scope value σ before = (.ok c, after)) :
    Frame scope [] before.scopes after.scopes := by
  obtain ⟨_, _, -, -, -, same⟩ := returned_ok run
  rw [same]
  exact .refl scope before.scopes

theorem frame_declarations {declarators : List Declarator} {list : List Assignment}
    (run : declarations scope declarators σ before = (.ok list, after)) :
    Frame scope (declaredLocals σ.types declarators) before.scopes after.scopes := by
  induction declarators generalizing before list with
  | nil =>
    rw [declarations, pure_ok] at run
    obtain ⟨-, rfl⟩ := run
    exact .refl _ _
  | cons declarator rest ih =>
    simp only [declarations, bind_ok, pure_ok, typeOfNode_ok] at run
    obtain ⟨type, _, ⟨known, rfl⟩, _, _, declared, _, _, first, _, _, others, -, rfl⟩ := run
    rw [declaredLocals, List.map_cons, known]
    exact (frame_declare declared).trans ((frame_mapM first).trans (ih others))

theorem frame_binding {left : ForBinding} {target : String}
    (run : binding scope left σ before = (.ok target, after)) :
    Frame scope (bindingLocals σ.types left) before.scopes after.scopes := by
  cases left with
  | declare declarator =>
    simp only [binding, bind_ok, pure_ok, typeOfNode_ok] at run
    obtain ⟨type, _, ⟨known, rfl⟩, _, _, declared, -, rfl⟩ := run
    rw [bindingLocals, declaredLocals, List.map_cons, List.map_nil, known]
    exact frame_declare declared
  | target e =>
    rw [binding] at run
    exact frame_expr scope run

theorem frame_loopHead {id : NodeId} {left : ForBinding} {right : Expr}
    {index collection target : String}
    (run : loopHead scope id left right σ before = (.ok (index, collection, target), after)) :
    Frame scope (⟨index, .number⟩ :: bindingLocals σ.types left) before.scopes after.scopes := by
  simp only [loopHead, bind_ok, pure_ok, Prod.mk.injEq] at run
  obtain ⟨_, _, counted, _, _, declared, _, _, read, _, _, bound, ⟨rfl, rfl, rfl⟩, rfl⟩ := run
  have start := frame_declare declared
  rw [(counter_ok.1 counted).2.1] at start
  exact start.trans ((frame_expr scope read).trans (frame_binding bound))

theorem frame_selection {id : NodeId} {discriminant : Expr} {select : Selection}
    (run : selection scope id discriminant σ before = (.ok select, after)) :
    Frame scope select.locals before.scopes after.scopes := by
  rw [selection, read_bind] at run
  simp only [bind_ok] at run
  obtain ⟨subject, _, read, run⟩ := run
  have start := frame_expr scope read
  split at run
  · obtain ⟨rfl, rfl⟩ := pure_ok.1 run
    exact start
  · simp only [bind_ok, pure_ok] at run
    obtain ⟨_, _, named, _, _, declared, _, _, needed, rfl, rfl⟩ := run
    have next := frame_declare declared
    rw [(temporary_ok.1 named).2.1] at next
    exact start.trans (next.trans (frame_expr scope needed))

theorem frame_loopStart {init : Option ForInit} {result : Option (List Assignment) × String}
    (run : loopStart scope init σ before = (.ok result, after)) :
    Frame scope (startLocals σ.types init) before.scopes after.scopes := by
  rcases init with _ | (declarators | e)
  · rw [loopStart, pure_ok] at run
    obtain ⟨-, rfl⟩ := run
    exact .refl _ _
  · simp only [loopStart, bind_ok, pure_ok] at run
    obtain ⟨_, _, declared, -, rfl⟩ := run
    exact frame_declarations declared
  · simp only [loopStart, bind_ok, pure_ok] at run
    obtain ⟨_, _, read, -, rfl⟩ := run
    exact frame_expr scope read

theorem frame_expressionStatement {e : Expr} {a : Assignment}
    (run : expressionStatement e σ before = (.ok a, after)) :
    Frame scope [] before.scopes after.scopes := by
  unfold expressionStatement at run
  split at run
  · simp only [read_bind, bind_ok] at run
    obtain ⟨_, _, place, run⟩ := run
    exact (frame_expr scope place).trans (frame_expr scope run)
  · simp only [bind_ok, pure_ok] at run
    obtain ⟨_, _, read, -, rfl⟩ := run
    exact frame_expr scope read

theorem frame_importHeader {path : String} (run : importHeader path σ before = (.ok (), after)) :
    Frame scope [] before.scopes after.scopes := by
  rw [importHeader, read_bind] at run
  cases header : headerOf σ.includeMarker path with
  | some name =>
    rw [header] at run
    exact frame_expr scope run
  | none =>
    rw [header] at run
    obtain ⟨-, rfl⟩ := pure_ok.1 run
    exact .refl _ _

theorem frame_label (scope : ScopeId) {test : Option Expr} {select : Selection} {index : Nat}
    {found : Option (String × List String)}
    (run : test.mapM (label select index) σ before = (.ok found, after)) :
    Frame scope [] before.scopes after.scopes := by
  rcases mapM_option_ok.1 run with ⟨-, -, rfl⟩ | ⟨_, _, -, -, run⟩
  · exact .refl _ _
  · simp only [label, bind_ok] at run
    obtain ⟨_, _, read, run⟩ := run
    have start := frame_expr scope read
    cases select <;> obtain ⟨-, rfl⟩ := pure_ok.1 run <;> exact start

mutual

/-- **The frame of a statement.** The scope where a statement stands gets the locals that the
statement introduces, and every other scope that was there keeps its locals. -/
theorem Emits.frame : ∀ {scope : ScopeId} {s : Stmt} {w w' : Workspace} {c : CStmt}
    {xs : List Variable}, Emits σ scope s w c xs w' → scope < w.scopes.size →
      Frame scope xs w.scopes w'.scopes
  | _, _, _, _, _, _, .breakStmt .., _ => .refl _ _
  | _, _, _, _, _, _, .continueStmt .., _ => .refl _ _
  | _, _, _, _, _, _, .emptyStmt .., _ => .refl _ _
  | _, _, _, _, _, _, .returnStmt run, _ => frame_returned run
  | scope, _, _, _, _, _, .ifThen head yes, old => by
      have start := frame_expr scope head
      exact start.trans (yes.frame (Nat.lt_of_lt_of_le old start.grows))
  | scope, _, _, _, _, _, .ifElse head yes no, old => by
      have start := frame_expr scope head
      have first := yes.frame (Nat.lt_of_lt_of_le old start.grows)
      exact start.trans (first.trans
        (no.frame (Nat.lt_of_lt_of_le old (start.trans first).grows)))
  | _, _, _, _, _, _, .switchOn head each, old => by
      have start := frame_selection head
      exact start.trans (each.frame (Nat.lt_of_lt_of_le old start.grows))
  | scope, _, _, _, _, _, .whileLoop head loop, old => by
      have start := frame_expr scope head
      exact start.trans (loop.frame (Nat.lt_of_lt_of_le old start.grows))
  | scope, _, _, _, _, _, .doLoop loop last, old =>
      (loop.frame old).trans (frame_expr scope last)
  | _, _, _, _, _, _, .forLoop start head step loop, old => by
      have first := frame_loopStart start
      have next := (first.trans (frame_mapM head)).trans (frame_mapM step)
      have all := next.trans (loop.frame (Nat.lt_of_lt_of_le old next.grows))
      simp only [List.append_nil] at all
      exact all
  | _, _, _, _, _, _, .forOf _ head loop, old => by
      have start := frame_loopHead head
      exact start.trans (loop.frame (Nat.lt_of_lt_of_le old start.grows))
  | _, _, _, _, _, _, .forIn _ _ head loop, old => by
      have start := frame_loopHead head
      exact start.trans (loop.frame (Nat.lt_of_lt_of_le old start.grows))
  | _, _, _, _, _, _, .expression run, _ => frame_expressionStatement run
  | _, _, _, _, _, _, .block inner, old => inner.frame old
  | _, _, _, _, _, _, .importFrom run, _ => frame_importHeader run
  | _, _, _, _, _, _, .declaration run, _ => frame_declarations run

theorem EmitsAll.frame : ∀ {scope : ScopeId} {body : List Stmt} {w w' : Workspace}
    {cs : List CStmt} {xs : List Variable}, EmitsAll σ scope body w cs xs w' →
      scope < w.scopes.size → Frame scope xs w.scopes w'.scopes
  | _, _, _, _, _, _, .nil .., _ => .refl _ _
  | _, _, _, _, _, _, .cons first others, old => by
      have start := first.frame old
      exact start.trans (others.frame (Nat.lt_of_lt_of_le old start.grows))

/-- A block introduces nothing in the scope around it. -/
theorem EmitsBlock.frame : ∀ {scope : ScopeId} {body : List Stmt} {w w' : Workspace}
    {b : Block CStmt}, EmitsBlock σ scope body w b w' → scope < w.scopes.size →
      Frame scope [] w.scopes w'.scopes
  | _, _, _, _, _, .intro opened all _, old => by
      obtain ⟨fresh, empty, start⟩ := frame_newChild (newChild_ok.1 opened).1 old
      exact start.inside fresh (all.frame (lt_size_of_locals? empty)) old

theorem EmitsHoisted.frame : ∀ {scope : ScopeId} {body : List Stmt} {w w' : Workspace}
    {cs : List CStmt} {xs : List Variable}, EmitsHoisted σ scope body w cs xs w' →
      scope < w.scopes.size → Frame scope xs w.scopes w'.scopes
  | scope, _, _, _, _, _, .intro opened all moved, old => by
      obtain ⟨fresh, empty, start⟩ := frame_newChild (newChild_ok.1 opened).1 old
      obtain ⟨⟨_, _, drained, extended⟩, -, -⟩ := hoist_ok.1 moved
      exact start.hoist fresh empty (all.frame (lt_size_of_locals? empty)) drained extended old

theorem EmitsClauses.frame : ∀ {scope : ScopeId} {select : Selection} {index : Nat}
    {list : List (Clause Stmt)} {w w' : Workspace} {comparisons : List String} {cases : List CStmt}
    {xs : List Variable}, EmitsClauses σ scope select index list w comparisons cases xs w' →
      scope < w.scopes.size → Frame scope xs w.scopes w'.scopes
  | _, _, _, _, _, _, _, _, _, .nil .., _ => .refl _ _
  | scope, _, _, _, _, _, _, _, _, .cons head first others, old => by
      have start := frame_label scope head
      have next := start.trans (first.frame (Nat.lt_of_lt_of_le old start.grows))
      exact next.trans (others.frame (Nat.lt_of_lt_of_le old next.grows))

end

/-- A scope in which a new one was opened exists. -/
theorem lt_size_of_newChild {inner : ScopeId}
    (opened : newChild scope σ before = (.ok inner, after)) :
    scope < before.scopes.size := by
  obtain ⟨_, found, -, -⟩ := newChild?_eq_some.1 (newChild_ok.1 opened).1
  exact lt_size_of_find? found

/-- A block declares what its statements introduce. -/
theorem locals_of_block {inner : ScopeId} {body : List Stmt} {w w₁ w' : Workspace}
    {cs : List CStmt} {xs locals : List Variable} (opened : newChild scope σ w = (.ok inner, w₁))
    (all : EmitsAll σ inner body w₁ cs xs w') (kept : localsOf inner σ w' = (.ok locals, w')) :
    locals = introduce [] xs := by
  obtain ⟨-, empty, -⟩ := frame_newChild (newChild_ok.1 opened).1 (lt_size_of_newChild opened)
  have frame := all.frame (lt_size_of_locals? empty)
  exact Option.some.inj ((localsOf_ok.1 kept).1.symm.trans (frame.own empty))

/-- A function declares what its statements introduce, and ends with the plan of its scope if it is
to release there. -/
theorem emits_functionBody {signature : String} {body : List Stmt} {releaseAtEnd isMain : Bool}
    {g : CFunction}
    (run : functionBody signature body releaseAtEnd isMain σ before = (.ok g, after)) :
    ∃ scope opened xs, newFunction σ before = (.ok scope, opened) ∧
      EmitsAll σ scope body opened g.statements xs after ∧ g.locals = introduce [] xs ∧
      after.scopes.locals? scope = some g.locals ∧
      (if releaseAtEnd then after.scopes.releases? scope none = some g.releases
        else g.releases = []) := by
  rw [functionBody, bind_ok] at run
  obtain ⟨scope, opened, made, run⟩ := run
  rw [bind_ok] at run
  obtain ⟨statements, closed, all, run⟩ := run
  rw [bind_ok] at run
  obtain ⟨locals, _, kept, run⟩ := run
  obtain ⟨found, rfl⟩ := localsOf_ok.1 kept
  obtain ⟨rfl, rfl, rfl, ends⟩ : after = closed ∧ g.statements = statements ∧ g.locals = locals ∧
      (if releaseAtEnd then closed.scopes.releases? scope none = some g.releases
        else g.releases = []) := by
    cases releaseAtEnd with
    | true =>
      simp only [if_true, bind_ok, pure_ok, releases_ok] at run
      obtain ⟨_, _, ⟨plan, rfl⟩, rfl, rfl⟩ := run
      exact ⟨rfl, rfl, rfl, plan⟩
    | false =>
      simp only [Bool.false_eq_true, if_false, bind_ok, pure_ok] at run
      obtain ⟨_, _, ⟨rfl, rfl⟩, rfl, rfl⟩ := run
      exact ⟨rfl, rfl, rfl, rfl⟩
  obtain ⟨xs, emits⟩ := emitsAll_of_run body all
  have empty : opened.scopes.locals? scope = some [] := by
    have tree := (newFunction_ok.1 made).1
    have later : before.scopes.newFunction.2 = opened.scopes := congrArg Prod.snd tree
    have number : before.scopes.size = scope := congrArg Prod.fst tree
    rw [locals?, ← later, find?_newFunction, if_pos number.symm]
    rfl
  have frame := emits.frame (lt_size_of_locals? empty)
  have same := Option.some.inj (found.symm.trans (frame.own empty))
  exact ⟨scope, opened, xs, made, emits, same, found,
    ends⟩

end Emit

end ScriptToC
