import ScriptToC.Proofs.CCode.Reading
import ScriptToC.Proofs.Emission.Frame
import ScriptToC.Proofs.Release.Plan

/-!
# What conditions and loops govern

A body of one source statement is printed without braces if it declares nothing. C then reads it as
one statement only if the source statement becomes one: an import becomes nothing, a return becomes
several statements where something has to be released, and so does a literal that is assigned
element by element. These are the only cases (`bodies_printOne_iff_fits`).
-/

set_option autoImplicit false

namespace ScriptToC.Emit

open Ir

variable {σ : Setting}

/-! ## The condition on the source -/

/-- What holds after a step, if it succeeds. -/
def After {α : Type} (m : EmitM α) (σ : Setting) (w : Workspace) (post : α → Workspace → Prop) :
    Prop :=
  ∀ a w', m σ w = (.ok a, w') → post a w'

theorem after_iff {α : Type} {m : EmitM α} {w w' : Workspace} {a : α} {post : α → Workspace → Prop}
    (run : m σ w = (.ok a, w')) : After m σ w post ↔ post a w' := by
  constructor
  · intro after
    exact after a w' run
  · intro holds b last run'
    rw [run] at run'
    cases run'
    exact holds

theorem after_and {α : Type} {m : EmitM α} {w : Workspace} {post post' : α → Workspace → Prop} :
    (After m σ w fun a w => post a w ∧ post' a w) ↔ After m σ w post ∧ After m σ w post' := by
  constructor
  · intro after
    constructor
    · intro a w' run
      exact (after a w' run).1
    · intro a w' run
      exact (after a w' run).2
  · rintro ⟨after, after'⟩ a w' run
    exact ⟨after a w' run, after' a w' run⟩

/-- An expression statement becomes one line: it assigns no literal, or one that takes one line. A
dynamic array or a dictionary takes a line for its creation, and each element takes another. -/
def OneLine (types : Types) : Expr → Prop
  | .assign _ none target (.array _ elements) =>
    if (types target.id).any CType.isDynamicArray then elements = [] else elements.length = 1
  | .assign _ none _ (.object _ properties) => properties = []
  | _ => True

mutual

/-- The only statement of a block, in the scope of the block, becomes one C statement, or introduces
locals, so that the block gets braces. -/
def aloneFits (σ : Setting) : ScopeId → Stmt → Workspace → Prop
  | scope, .returnStmt _ value, w => w.scopes.releases? scope (value.bind Expr.ident?) = some []
  | _, .importFrom .., _ => False
  | _, .declaration _ declarators, _ => declarators ≠ []
  | _, .expression _ e, _ => OneLine σ.types e
  | scope, .block _ body, w => After (newChild scope) σ w fun inner w => soloFits σ inner body w
  | _, _, _ => True

/-- The statements of a block, if there is only one, become one C statement. -/
def soloFits (σ : Setting) : ScopeId → List Stmt → Workspace → Prop
  | scope, [only], w => aloneFits σ scope only w
  | _, _, _ => True

end

/-- A body becomes one C statement in its new scope, and so do the bodies in it. -/
def bodyFits (σ : Setting) (scope : ScopeId) (body : List Stmt)
    (within : ScopeId → Workspace → Prop) (w : Workspace) : Prop :=
  After (newChild scope) σ w fun inner w => soloFits σ inner body w ∧ within inner w

mutual

/-- Every body in the statement, at every depth, becomes one C statement where it is emitted. -/
def stmtFits (σ : Setting) : ScopeId → Stmt → Workspace → Prop
  | scope, .ifThen _ test ⟨_, body⟩, w =>
    After (expr (condition · test)) σ w fun _ w =>
      bodyFits σ scope body (fun inner w => stmtsFit σ inner body w) w
  | scope, .ifElse _ test ⟨_, body⟩ ⟨_, otherwise⟩, w =>
    After (expr (condition · test)) σ w fun _ w =>
      bodyFits σ scope body (fun inner w => stmtsFit σ inner body w) w ∧
      After (block scope fun inner => stmts inner body) σ w fun _ w =>
        bodyFits σ scope otherwise (fun inner w => stmtsFit σ inner otherwise w) w
  | scope, .switchOn node discriminant list, w =>
    After (selection scope node.id discriminant) σ w fun select w =>
      clausesFit σ scope select 0 list w
  | scope, .whileLoop _ test ⟨_, body⟩, w =>
    After (expr (condition · test)) σ w fun _ w =>
      bodyFits σ scope body (fun inner w => stmtsFit σ inner body w) w
  | scope, .doLoop _ ⟨_, body⟩ _, w =>
    bodyFits σ scope body (fun inner w => stmtsFit σ inner body w) w
  | scope, .forLoop _ init test update ⟨_, body⟩, w =>
    After (loopStart scope init) σ w fun _ w =>
      After (test.mapM fun e => expr (condition · e)) σ w fun _ w =>
        After (update.mapM fun e => expr (exprText · e)) σ w fun _ w =>
          bodyFits σ scope body (fun inner w => stmtsFit σ inner body w) w
  | scope, .forOf node left right body, w =>
    After (loopHead scope node.id left right) σ w fun _ w =>
      After (newChild scope) σ w fun inner w => stmtFits σ inner body w
  | scope, .forIn node left right ⟨_, body⟩, w =>
    After (loopHead scope node.id left right) σ w fun _ w =>
      After (newChild scope) σ w fun inner w => stmtsFit σ inner body w
  | scope, .block _ body, w =>
    After (newChild scope) σ w fun inner w => stmtsFit σ inner body w
  | _, _, _ => True

/-- Every body in the statements becomes one C statement where it is emitted. -/
def stmtsFit (σ : Setting) : ScopeId → List Stmt → Workspace → Prop
  | _, [], _ => True
  | scope, first :: rest, w =>
    stmtFits σ scope first w ∧ After (stmt scope first) σ w fun _ w => stmtsFit σ scope rest w

/-- Every body in the clauses becomes one C statement where it is emitted. -/
def clausesFit (σ : Setting) : ScopeId → Selection → Nat → List (Clause Stmt) → Workspace → Prop
  | _, _, _, [], _ => True
  | scope, select, index, ⟨test, body⟩ :: rest, w =>
    After (test.mapM (label select index)) σ w fun _ w =>
      (After (newChild scope) σ w fun inner w => stmtsFit σ inner body w) ∧
      After (hoisted scope fun inner => stmts inner body) σ w fun _ w =>
        clausesFit σ scope select (index + 1) rest w

end

/-! ## The number of lines -/

theorem length_arrayLines {types : Types} {target : String} {element : CType} {dynamic : Bool}
    {elements : List Expr} {lines : List String} {before after : Headers}
    (run : arrayLines types target element dynamic elements before = (.ok lines, after)) :
    lines.length = elements.length + if dynamic then 1 else 0 := by
  simp only [arrayLines, exprM_bind_ok, exprM_pure_ok] at run
  obtain ⟨written, _, each, rfl, -⟩ := run
  have same := length_of_mapM each
  rw [List.length_zipIdx] at same
  cases dynamic
  · exact same
  · exact congrArg (· + 1) same

theorem length_dictLines {types : Types} {target : String} {properties : List (String × Expr)}
    {lines : List String} {before after : Headers}
    (run : dictLines types target properties before = (.ok lines, after)) :
    lines.length = properties.length + 1 := by
  simp only [dictLines, exprM_bind_ok, exprM_pure_ok] at run
  obtain ⟨written, _, each, rfl, -⟩ := run
  exact congrArg (· + 1) (length_of_mapM each)

theorem expr_run {α : Type} {action : Types → ExprM α} {w w' : Workspace} {a : α}
    (run : expr action σ w = (.ok a, w')) : action σ.types w.headers = (.ok a, w'.headers) := by
  rcases eq : action σ.types w.headers with ⟨result, headers⟩
  have same : expr action σ w = (result, { w with headers }) := by
    rw [expr, eq]
  rw [run] at same
  cases same
  rfl

/-- The number of statements that an assignment becomes. -/
def lineCount (type : Option CType) : Expr → Nat
  | .array _ elements => elements.length + if type.any CType.isDynamicArray then 1 else 0
  | .object _ properties => properties.length + 1
  | _ => 1

theorem length_tokens_assignment {types : Types} {target : String} {type : Option CType}
    {value : Expr} {a : Assignment} {before after : Headers}
    (run : Emit.assignment types target type value before = (.ok a, after)) :
    a.tokens.length = lineCount type value := by
  unfold Emit.assignment at run
  split at run
  next node elements element capacity dynamic =>
    split at run
    next => cases run
    next =>
      simp only [exprM_bind_ok, exprM_pure_ok] at run
      obtain ⟨lines, _, each, rfl, -⟩ := run
      rw [Assignment.tokens, List.length_map, length_arrayLines each]
      rfl
  next node properties element =>
    simp only [exprM_bind_ok, exprM_pure_ok] at run
    obtain ⟨lines, _, each, rfl, -⟩ := run
    rw [Assignment.tokens, List.length_map, length_dictLines each]
    rfl
  next => cases run
  next => cases run
  next => cases run
  next => cases run
  next noArray noObject noOther noOther' noType noType' =>
    simp only [exprM_bind_ok, exprM_pure_ok] at run
    obtain ⟨text, _, -, rfl, -⟩ := run
    cases value with
    | array node elements =>
      cases type with
      | none => exact (noType _ _ rfl rfl).elim
      | some type => exact (noOther _ _ _ rfl rfl).elim
    | object node properties =>
      cases type with
      | none => exact (noType' _ _ rfl rfl).elim
      | some type => exact (noOther' _ _ _ rfl rfl).elim
    | _ => rfl

theorem oneLine_iff {e : Expr} {w w' : Workspace} {a : Assignment}
    (run : expressionStatement e σ w = (.ok a, w')) : a.tokens.length = 1 ↔ OneLine σ.types e := by
  unfold expressionStatement at run
  split at run
  next node target value =>
    simp only [read_bind, bind_ok] at run
    obtain ⟨place, _, -, run⟩ := run
    rw [length_tokens_assignment (expr_run run)]
    cases value with
    | array _ elements =>
      rw [lineCount, OneLine]
      cases (σ.types target.id).any CType.isDynamicArray <;> simp
    | object _ properties =>
      rw [lineCount, OneLine]
      simp
    | _ => exact iff_of_true rfl trivial
  next plain =>
    simp only [bind_ok, pure_ok] at run
    obtain ⟨text, _, -, rfl, -⟩ := run
    refine iff_of_true rfl ?_
    cases e with
    | assign node op target value =>
      cases op with
      | none => exact (plain _ _ _ rfl).elim
      | some op => exact trivial
    | _ => exact trivial

/-! ## One statement in a block -/

/-- Everything that is released is freed by at least one call. -/
theorem tokens_release?_ne_nil {x : Variable} {release : Release}
    (made : x.release? = some release) : release.tokens ≠ [] := by
  obtain ⟨name, type⟩ := x
  cases type with
  | array element capacity dynamic =>
    cases dynamic <;> simp [Variable.release?] at made
    subst made
    simp [Release.tokens]
  | dict element => simp [Variable.release?] at made; subst made; simp [Release.tokens]
  | struct name => simp [Variable.release?] at made; subst made; simp [Release.tokens]
  | _ => simp [Variable.release?] at made

theorem tokens_releases?_eq_nil {tree : ScopeTree} {scope : ScopeId} {kept : Option String}
    {releases : List Release} (plan : tree.releases? scope kept = some releases) :
    releases.flatMap Release.tokens = [] ↔ tree.releases? scope kept = some [] := by
  rw [plan, Option.some.injEq]
  constructor
  · intro empty
    rw [List.flatMap_eq_nil_iff] at empty
    cases releases with
    | nil => rfl
    | cons first rest =>
      simp only [ScopeTree.releases?, Option.bind_eq_bind, Option.bind_eq_some_iff,
        Option.pure_def, Option.some.injEq] at plan
      obtain ⟨_, -, _, -, made⟩ := plan
      have member : first ∈ first :: rest := List.mem_cons_self
      rw [← made] at member
      obtain ⟨x, -, isRelease⟩ := List.mem_filterMap.1 member
      exact absurd (empty first List.mem_cons_self) (tokens_release?_ne_nil isRelease)
  · rintro rfl
    rfl

open ScopeTree

theorem single_returned {scope : ScopeId} {value : Option Expr} {w w' : Workspace} {c : CStmt}
    (run : returned scope value σ w = (.ok c, w')) :
    c.Single ↔ w.scopes.releases? scope (value.bind Expr.ident?) = some [] := by
  obtain ⟨_, _, rfl, -, plan, -⟩ := returned_ok run
  exact tokens_releases?_eq_nil plan

theorem single_switch {select : Selection} {comparisons : List String} {cases : List CStmt}
    {xs : List Variable} (none : select.locals ++ xs = []) :
    (select.switch comparisons cases).Single := by
  cases select with
  | value subject => exact trivial
  | index subject compared => cases none

theorem declared_of_loopStart {scope : ScopeId} {init : Option ForInit} {w w' : Workspace}
    {declared : Option (List Assignment)} {first : String}
    (start : loopStart scope init σ w = (.ok (declared, first), w'))
    (none : startLocals σ.types init = []) :
    (declared.getD []).flatMap Assignment.tokens = [] := by
  rcases init with _ | (declarators | e)
  · rw [loopStart, pure_ok] at start
    obtain ⟨same, -⟩ := start
    cases same
    rfl
  · obtain rfl := List.map_eq_nil_iff.1 none
    simp only [loopStart, declarations, bind_ok, pure_ok] at start
    obtain ⟨_, _, ⟨rfl, -⟩, same, -⟩ := start
    cases same
    rfl
  · simp only [loopStart, bind_ok, pure_ok] at start
    obtain ⟨_, _, -, same, -⟩ := start
    cases same
    rfl

/-- A declaration without declarators becomes nothing. -/
theorem not_single_declaration {scope : ScopeId} {declarators : List Declarator} {w w' : Workspace}
    {list : List Assignment} (run : declarations scope declarators σ w = (.ok list, w'))
    (none : declaredLocals σ.types declarators = []) :
    ¬ (CStmt.declaration list).Single ∧ ¬ declarators ≠ [] := by
  obtain rfl := List.map_eq_nil_iff.1 none
  rw [declarations, pure_ok] at run
  obtain ⟨rfl, -⟩ := run
  refine ⟨?_, not_not_intro rfl⟩
  rw [CStmt.Single]
  decide

theorem isBraced_introduce (xs : List Variable) (cs : List CStmt) :
    Block.isBraced ⟨introduce [] xs, cs, false⟩ = true ↔ cs.length > 1 ∨ xs ≠ [] := by
  simp [Block.isBraced, introduce_eq_nil]

theorem solo_of_alone {c : CStmt} {xs : List Variable} {fits : Prop}
    (alone : (xs ≠ [] → fits) ∧ (xs = [] → (c.Single ↔ fits))) :
    Block.Single ⟨introduce [] xs, [c], false⟩ ↔ fits := by
  rw [Block.Single]
  by_cases none : xs = []
  · subst none
    exact alone.2 rfl
  · rw [if_pos ((isBraced_introduce xs [c]).2 (.inr none))]
    exact iff_of_true (by simp) (alone.1 none)

mutual

/-- The only statement of a block fits if it introduces locals, and otherwise if it is printed as
one statement. -/
theorem Emits.alone : ∀ {scope : ScopeId} {s : Stmt} {w w' : Workspace} {c : CStmt}
    {xs : List Variable}, Emits σ scope s w c xs w' →
      (xs ≠ [] → aloneFits σ scope s w) ∧ (xs = [] → (c.Single ↔ aloneFits σ scope s w))
  | _, _, _, _, _, _, .breakStmt .. | _, _, _, _, _, _, .continueStmt ..
  | _, _, _, _, _, _, .emptyStmt .. | _, _, _, _, _, _, .ifThen .. | _, _, _, _, _, _, .ifElse ..
  | _, _, _, _, _, _, .whileLoop .. | _, _, _, _, _, _, .doLoop .. =>
    ⟨fun _ => trivial, fun _ => Iff.rfl⟩
  | _, _, _, _, _, _, .returnStmt run =>
    ⟨fun absurd => (absurd rfl).elim, fun _ => single_returned run⟩
  | _, _, _, _, _, _, .switchOn .. =>
    ⟨fun _ => trivial, fun none => iff_of_true (single_switch none) trivial⟩
  | _, _, _, _, _, _, .forLoop start _ _ _ =>
    ⟨fun _ => trivial, fun none => iff_of_true (declared_of_loopStart start none) trivial⟩
  | _, _, _, _, _, _, .forOf .. | _, _, _, _, _, _, .forIn .. =>
    ⟨fun _ => trivial, nofun⟩
  | _, _, _, _, _, _, .expression run =>
    ⟨fun absurd => (absurd rfl).elim, fun _ => oneLine_iff run⟩
  | _, _, _, _, _, _, .block inner =>
    ⟨fun absurd => (absurd rfl).elim, fun _ => inner.single⟩
  | _, _, _, _, _, _, .importFrom _ =>
    ⟨fun absurd => (absurd rfl).elim, fun _ => Iff.rfl⟩
  | _, _, _, _, _, _, .declaration run => by
    constructor
    · rintro some rfl
      exact some rfl
    · intro none
      obtain ⟨several, empty⟩ := not_single_declaration run none
      exact iff_of_false several empty

theorem EmitsAll.solo : ∀ {scope : ScopeId} {body : List Stmt} {w w' : Workspace}
    {cs : List CStmt} {xs : List Variable}, EmitsAll σ scope body w cs xs w' →
      (Block.Single ⟨introduce [] xs, cs, false⟩ ↔ soloFits σ scope body w)
  | _, _, _, _, _, _, .nil .. => iff_of_true trivial trivial
  | _, _, _, _, _, _, .cons first (.nil ..) => by
    rw [List.append_nil]
    exact solo_of_alone first.alone
  | _, _, _, _, _, _, .cons _ (.cons ..) => by
    rw [Block.Single, if_pos ((isBraced_introduce _ _).2 (.inl (by simp)))]
    exact iff_of_true (by simp) trivial

/-- A block is printed as one statement if its only statement fits. -/
theorem EmitsBlock.single : ∀ {scope : ScopeId} {body : List Stmt} {w w' : Workspace}
    {b : Block CStmt}, EmitsBlock σ scope body w b w' →
      (Block.Single b ↔ After (newChild scope) σ w fun inner w => soloFits σ inner body w)
  | _, _, _, _, _, .intro opened all kept => by
    rw [locals_of_block opened all kept, after_iff opened]
    exact all.solo

end

/-! ## Open ends -/

theorem openEnd_switch (select : Selection) (comparisons : List String) (cases : List CStmt) :
    (select.switch comparisons cases).openEnd = false := by
  cases select <;> rfl

mutual

/-- A C statement is open at its end only if its source is. -/
theorem Emits.openEnd : ∀ {scope : ScopeId} {s : Stmt} {w w' : Workspace} {c : CStmt}
    {xs : List Variable}, Emits σ scope s w c xs w' → c.openEnd = true → s.endsInOpenIf = true
  | _, _, _, _, _, _, .returnStmt run, isOpen => by
    obtain ⟨_, _, rfl, -⟩ := returned_ok run
    cases isOpen
  | _, _, _, _, _, _, .ifThen .., _ => rfl
  | _, _, _, _, _, _, .ifElse _ _ no, isOpen => no.openEnd isOpen
  | _, _, _, _, _, _, .switchOn .., isOpen => by
    rw [openEnd_switch] at isOpen
    cases isOpen
  | _, _, _, _, _, _, .whileLoop _ loop, isOpen => loop.openEnd isOpen
  | _, _, _, _, _, _, .forLoop _ _ _ loop, isOpen => loop.openEnd isOpen
  | _, _, _, _, _, _, .forOf .., isOpen => by
    split at isOpen <;> cases isOpen
  | _, _, _, _, _, _, .block inner, isOpen => inner.openEnd isOpen

theorem EmitsAll.openEnd : ∀ {scope : ScopeId} {body : List Stmt} {w w' : Workspace}
    {cs : List CStmt} {xs : List Variable}, EmitsAll σ scope body w cs xs w' →
      listOpenEnd cs = true → Stmt.bodyEndsInOpenIf body = true
  | _, _, _, _, _, _, .cons first (.nil ..), isOpen => first.openEnd isOpen
  | _, _, _, _, _, _, .cons _ (.cons ..), isOpen => by cases isOpen

theorem EmitsBlock.openEnd : ∀ {scope : ScopeId} {body : List Stmt} {w w' : Workspace}
    {b : Block CStmt}, EmitsBlock σ scope body w b w' → blockOpenEnd b = true →
      Stmt.bodyEndsInOpenIf body = true
  | _, _, _, _, _, .intro _ all _, isOpen => all.openEnd (Bool.and_eq_true_iff.1 isOpen).2

end

/-- A block gets no braces but those that it needs. -/
theorem EmitsBlock.unforced {scope : ScopeId} {body : List Stmt} {w w' : Workspace}
    {b : Block CStmt} (emits : EmitsBlock σ scope body w b w') :
    { b with forceBraces := false } = b := by
  cases emits
  rfl

/-- A body before an `else` is not open at its end: it gets braces if its source is. -/
theorem EmitsBlock.closed {scope : ScopeId} {body : List Stmt} {w w' : Workspace} {b : Block CStmt}
    (emits : EmitsBlock σ scope body w b w') :
    blockOpenEnd { b with forceBraces := Stmt.bodyEndsInOpenIf body } = false := by
  cases isOpen : Stmt.bodyEndsInOpenIf body with
  | true => rfl
  | false =>
    rw [emits.unforced, ← Bool.not_eq_true]
    intro absurd
    rw [emits.openEnd absurd] at isOpen
    cases isOpen

theorem elseSafe_switch {select : Selection} {comparisons : List String} {cases : List CStmt}
    (safe : listElseSafe cases) : (select.switch comparisons cases).ElseSafe := by
  cases select <;> exact safe

theorem blockElseSafe_force {b : Block CStmt} {force : Bool} (safe : blockElseSafe b) :
    blockElseSafe { b with forceBraces := force } := by
  obtain ⟨_, _, _⟩ := b
  exact safe

mutual

/-- No `else` of an emitted statement comes after an open end. -/
theorem Emits.elseSafe : ∀ {scope : ScopeId} {s : Stmt} {w w' : Workspace} {c : CStmt}
    {xs : List Variable}, Emits σ scope s w c xs w' → c.ElseSafe
  | _, _, _, _, _, _, .breakStmt .. | _, _, _, _, _, _, .continueStmt ..
  | _, _, _, _, _, _, .emptyStmt .. | _, _, _, _, _, _, .expression _
  | _, _, _, _, _, _, .importFrom _ | _, _, _, _, _, _, .declaration _ => trivial
  | _, _, _, _, _, _, .returnStmt run => by
    obtain ⟨_, _, rfl, -⟩ := returned_ok run
    exact trivial
  | _, _, _, _, _, _, .ifThen _ yes => yes.elseSafe
  | _, _, _, _, _, _, .ifElse _ yes no =>
    ⟨yes.closed, blockElseSafe_force yes.elseSafe, no.elseSafe⟩
  | _, _, _, _, _, _, .switchOn _ each => elseSafe_switch each.elseSafe
  | _, _, _, _, _, _, .whileLoop _ loop => loop.elseSafe
  | _, _, _, _, _, _, .doLoop loop _ => loop.elseSafe
  | _, _, _, _, _, _, .forLoop _ _ _ loop => loop.elseSafe
  | _, _, _, _, _, _, .forOf _ _ loop => by
    split
    · exact loop.elseSafe
    · exact loop.elseSafe
  | _, _, _, _, _, _, .forIn _ _ _ loop => loop.elseSafe
  | _, _, _, _, _, _, .block inner => inner.elseSafe

theorem EmitsAll.elseSafe : ∀ {scope : ScopeId} {body : List Stmt} {w w' : Workspace}
    {cs : List CStmt} {xs : List Variable}, EmitsAll σ scope body w cs xs w' → listElseSafe cs
  | _, _, _, _, _, _, .nil .. => trivial
  | _, _, _, _, _, _, .cons first others => ⟨first.elseSafe, others.elseSafe⟩

theorem EmitsBlock.elseSafe : ∀ {scope : ScopeId} {body : List Stmt} {w w' : Workspace}
    {b : Block CStmt}, EmitsBlock σ scope body w b w' → blockElseSafe b
  | _, _, _, _, _, .intro _ all _ => all.elseSafe

theorem EmitsHoisted.elseSafe : ∀ {scope : ScopeId} {body : List Stmt} {w w' : Workspace}
    {cs : List CStmt} {xs : List Variable}, EmitsHoisted σ scope body w cs xs w' → listElseSafe cs
  | _, _, _, _, _, _, .intro _ all _ => all.elseSafe

theorem EmitsClauses.elseSafe : ∀ {scope : ScopeId} {select : Selection} {index : Nat}
    {list : List (Clause Stmt)} {w w' : Workspace} {comparisons : List String} {cases : List CStmt}
    {xs : List Variable}, EmitsClauses σ scope select index list w comparisons cases xs w' →
      listElseSafe cases
  | _, _, _, _, _, _, _, _, _, .nil .. => trivial
  | _, _, _, _, _, _, _, _, _, .cons _ first others => ⟨first.elseSafe, others.elseSafe⟩

end

/-! ## Bodies and what they come from -/

theorem bodies_switch (select : Selection) (comparisons : List String) (cases : List CStmt) :
    (select.switch comparisons cases).bodies = listBodies cases := by
  cases select <;> rfl

theorem innerBodies_force (b : Block CStmt) (force : Bool) :
    innerBodies { b with forceBraces := force } = innerBodies b := by
  obtain ⟨_, _, _⟩ := b
  rfl

theorem stmtsFit_singleton {scope : ScopeId} {s : Stmt} {w : Workspace} :
    stmtsFit σ scope [s] w ↔ stmtFits σ scope s w := by
  rw [stmtsFit]
  exact and_iff_left fun _ _ _ => trivial

mutual

theorem aloneFits_of_open : ∀ {s : Stmt} {scope : ScopeId} {w : Workspace},
    s.endsInOpenIf = true → aloneFits σ scope s w
  | .ifThen .., _, _, _ | .ifElse .., _, _, _ | .whileLoop .., _, _, _ | .forLoop .., _, _, _
  | .forIn .., _, _, _ | .forOf .., _, _, _ => trivial
  | .block _ body, _, _, isOpen => fun _ _ _ => @soloFits_of_open body _ _ isOpen

theorem soloFits_of_open : ∀ {body : List Stmt} {scope : ScopeId} {w : Workspace},
    Stmt.bodyEndsInOpenIf body = true → soloFits σ scope body w
  | [only], _, _, isOpen => @aloneFits_of_open only _ _ isOpen

end

/-- A body that gets braces in any case fits, as it ends in an `if`. -/
theorem EmitsBlock.single_forced {scope : ScopeId} {body : List Stmt} {w w' : Workspace}
    {b : Block CStmt} (emits : EmitsBlock σ scope body w b w') :
    Block.Single { b with forceBraces := Stmt.bodyEndsInOpenIf body } ↔
      After (newChild scope) σ w fun inner w => soloFits σ inner body w := by
  cases isOpen : Stmt.bodyEndsInOpenIf body with
  | false =>
    rw [emits.unforced]
    exact emits.single
  | true =>
    refine iff_of_true ?_ fun _ _ _ => soloFits_of_open isOpen
    cases emits with
    | intro opened all kept =>
      cases all with
      | nil => cases isOpen
      | cons => simp [Block.Single, Block.isBraced]

mutual

theorem Emits.single_bodies : ∀ {scope : ScopeId} {s : Stmt} {w w' : Workspace} {c : CStmt}
    {xs : List Variable}, Emits σ scope s w c xs w' →
      ((∀ body ∈ c.bodies, Block.Single body) ↔ stmtFits σ scope s w)
  | _, _, _, _, _, _, .breakStmt .. | _, _, _, _, _, _, .continueStmt ..
  | _, _, _, _, _, _, .emptyStmt .. | _, _, _, _, _, _, .expression _
  | _, _, _, _, _, _, .importFrom _ | _, _, _, _, _, _, .declaration _ =>
    iff_of_true nofun trivial
  | _, _, _, _, _, _, .returnStmt run => by
    obtain ⟨_, _, rfl, -⟩ := returned_ok run
    exact iff_of_true nofun trivial
  | _, _, _, _, _, _, .ifThen head yes => by
    rw [CStmt.bodies, stmtFits, after_iff head]
    exact yes.single_bodies
  | _, _, _, _, _, _, .ifElse head yes no => by
    rw [CStmt.bodies, stmtFits, after_iff head, List.forall_mem_append, after_iff yes.run,
      no.single_bodies, List.forall_mem_cons, yes.single_forced, innerBodies_force,
      yes.single_innerBodies, ← after_and]
    rfl
  | _, _, _, _, _, _, .switchOn head each => by
    rw [stmtFits, after_iff head, bodies_switch, each.single_bodies]
  | _, _, _, _, _, _, .whileLoop head loop => by
    rw [CStmt.bodies, stmtFits, after_iff head]
    exact loop.single_bodies
  | _, _, _, _, _, _, .doLoop loop _ => by
    rw [CStmt.bodies, stmtFits]
    exact loop.single_bodies
  | _, _, _, _, _, _, .forLoop start head step loop => by
    rw [CStmt.bodies, stmtFits, after_iff start, after_iff head, after_iff step]
    exact loop.single_bodies
  | _, _, _, _, _, _, .forOf _ head loop => by
    rw [stmtFits, after_iff head]
    have inside := loop.single_bodies
    simp only [stmtsFit_singleton] at inside
    split <;> exact inside
  | _, _, _, _, _, _, .forIn _ _ head loop => by
    rw [CStmt.bodies, stmtFits, after_iff head]
    exact loop.single_bodies
  | _, _, _, _, _, _, .block inner => by
    rw [CStmt.bodies, stmtFits]
    exact inner.single_innerBodies

theorem EmitsAll.single_bodies : ∀ {scope : ScopeId} {body : List Stmt} {w w' : Workspace}
    {cs : List CStmt} {xs : List Variable}, EmitsAll σ scope body w cs xs w' →
      ((∀ block ∈ listBodies cs, Block.Single block) ↔ stmtsFit σ scope body w)
  | _, _, _, _, _, _, .nil .. => iff_of_true nofun trivial
  | _, _, _, _, _, _, .cons first others => by
    rw [listBodies, List.forall_mem_append, stmtsFit, after_iff first.run, first.single_bodies,
      others.single_bodies]

theorem EmitsBlock.single_bodies : ∀ {scope : ScopeId} {body : List Stmt} {w w' : Workspace}
    {b : Block CStmt}, EmitsBlock σ scope body w b w' →
      ((∀ block ∈ b :: innerBodies b, Block.Single block) ↔
        bodyFits σ scope body (fun inner w => stmtsFit σ inner body w) w)
  | _, _, _, _, _, .intro opened all kept => by
    rw [List.forall_mem_cons, innerBodies, all.single_bodies, bodyFits, after_iff opened,
      locals_of_block opened all kept, all.solo]

/-- The bodies inside a block. -/
theorem EmitsBlock.single_innerBodies : ∀ {scope : ScopeId} {body : List Stmt} {w w' : Workspace}
    {b : Block CStmt}, EmitsBlock σ scope body w b w' →
      ((∀ block ∈ innerBodies b, Block.Single block) ↔
        After (newChild scope) σ w fun inner w => stmtsFit σ inner body w)
  | _, _, _, _, _, .intro opened all _ => by
    rw [innerBodies, all.single_bodies, after_iff opened]

theorem EmitsHoisted.single_bodies : ∀ {scope : ScopeId} {body : List Stmt} {w w' : Workspace}
    {cs : List CStmt} {xs : List Variable}, EmitsHoisted σ scope body w cs xs w' →
      ((∀ block ∈ listBodies cs, Block.Single block) ↔
        After (newChild scope) σ w fun inner w => stmtsFit σ inner body w)
  | _, _, _, _, _, _, .intro opened all _ => by
    rw [all.single_bodies, after_iff opened]

theorem EmitsClauses.single_bodies : ∀ {scope : ScopeId} {select : Selection} {index : Nat}
    {list : List (Clause Stmt)} {w w' : Workspace} {comparisons : List String} {cases : List CStmt}
    {xs : List Variable}, EmitsClauses σ scope select index list w comparisons cases xs w' →
      ((∀ block ∈ listBodies cases, Block.Single block) ↔ clausesFit σ scope select index list w)
  | _, _, _, _, _, _, _, _, _, .nil .. => iff_of_true nofun trivial
  | _, _, _, _, _, _, _, _, _, .cons head first others => by
    rw [listBodies, List.forall_mem_append, CStmt.bodies, first.single_bodies, others.single_bodies,
      clausesFit, after_iff head, after_iff first.run]

end

/-- **What a condition or a loop governs.** In a statement that is emitted, every body under a
condition or the head of a loop is printed as one C statement exactly if every body of the source is
several statements, or none, or one that becomes one C statement or introduces locals. -/
theorem bodies_printOne_iff_fits {scope : ScopeId} {s : Stmt} {w w' : Workspace} {c : CStmt}
    (run : stmt scope s σ w = (.ok c, w')) :
    (∀ body ∈ c.bodies, body.PrintsOne) ↔ stmtFits σ scope s w := by
  obtain ⟨xs, emits⟩ := emits_of_run s run
  exact (bodies_printOne_iff emits.elseSafe).trans emits.single_bodies

/-- A return under a condition. -/
def returnUnderCondition : Stmt :=
  .ifThen ⟨1, ⟨0, 16⟩⟩ (.ident ⟨2, ⟨4, 5⟩⟩ "c") ⟨none, [.returnStmt ⟨3, ⟨7, 16⟩⟩
    (some (.number ⟨4, ⟨14, 15⟩⟩ "0"))]⟩

/-- A workspace with a function that owns nothing. -/
def owningNothing : Workspace :=
  ⟨⟨[⟨none, 0, []⟩]⟩, {}, {}⟩

/-- Where nothing has to be released, the condition governs the return. -/
theorem bodies_printOne_iff_fits_return :
    ∃ c w', stmt 0 returnUnderCondition ⟨fun _ => none, "ts2c"⟩ owningNothing = (.ok c, w') ∧
      ((∀ body ∈ c.bodies, body.PrintsOne) ↔
        stmtFits ⟨fun _ => none, "ts2c"⟩ 0 returnUnderCondition owningNothing) := by
  have run : stmt 0 returnUnderCondition ⟨fun _ => none, "ts2c"⟩ owningNothing =
      (.ok (.ifThen "c" ⟨[], [.returnStmt (some "0") []], false⟩),
        ⟨⟨[⟨none, 0, []⟩, ⟨some 0, 0, []⟩]⟩, {}, {}⟩) := rfl
  exact ⟨_, _, run, bodies_printOne_iff_fits run⟩

/-- Where an array is owned, the condition governs the release of its elements only. -/
theorem return_after_releases_not_governed :
    ∃ c w', stmt 0 returnUnderCondition ⟨fun _ => none, "ts2c"⟩ ⟨.owning, {}, {}⟩ = (.ok c, w') ∧
      ¬ ∀ body ∈ c.bodies, body.PrintsOne := by
  refine ⟨_, _, rfl, ?_⟩
  intro one
  obtain ⟨_, _, -, -, -, reads⟩ := one _ List.mem_cons_self
  cases reads

end ScriptToC.Emit
