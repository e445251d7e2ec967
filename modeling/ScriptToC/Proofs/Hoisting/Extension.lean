import ScriptToC.Proofs.Hoisting.Layout

/-!
# The declarations that emission lays out

Emitting a statement extends the tree by the scopes of its C form, and these declare what the
statement introduces (`Emits.extends`). The head of a statement opens no scope; it introduces locals
whose home is the scope where the statement stands, or the one that this scope's locals move to.
-/

set_option autoImplicit false

namespace ScriptToC

open Ir ScopeTree

/-! ## Heads open no scope -/

namespace Emit

variable {α β : Type} {σ : Setting} {w w' : Workspace} {scope : ScopeId}

/-- A step that opens no scope. -/
def OpensNone (m : EmitM α) : Prop :=
  ∀ (σ : Setting) (w : Workspace), (m σ w).2.scopes.size = w.scopes.size

theorem OpensNone.bind {m : EmitM α} {next : α → EmitM β} (first : OpensNone m)
    (others : ∀ a, OpensNone (next a)) : OpensNone (m >>= next) := by
  intro σ w
  have size := first σ w
  rw [run_bind]
  split
  next a middle eq =>
    rw [eq] at size
    exact (others a σ middle).trans size
  next _ middle eq =>
    rw [eq] at size
    exact size

theorem opensNone_of_eq {m : EmitM α} (same : ∀ σ w, (m σ w).2.scopes = w.scopes) :
    OpensNone m :=
  fun σ w => congrArg ScopeTree.size (same σ w)

theorem opensNone_pure (a : α) : OpensNone (pure a : EmitM α) :=
  opensNone_of_eq fun _ _ => rfl

theorem opensNone_expr (action : Types → ExprM α) : OpensNone (expr action) :=
  opensNone_of_eq fun _ _ => rfl

theorem opensNone_read : OpensNone (read : EmitM Setting) :=
  opensNone_of_eq fun _ _ => rfl

theorem OpensNone.mapM {step : α → EmitM β} (each : ∀ a, OpensNone (step a)) (part : Option α) :
    OpensNone (part.mapM step) := by
  cases part with
  | none => exact opensNone_pure none
  | some a =>
    rw [Option.mapM_some, map_eq_pure_bind]
    exact (each a).bind fun _ => opensNone_pure _

theorem opensNone_declare (scope : ScopeId) (x : Variable) : OpensNone (declare scope x) := by
  refine OpensNone.bind ?_ fun _ => opensNone_pure _
  intro σ w
  rw [changeScopes, get_bind]
  rcases eq : w.scopes.add? scope x with _ | ⟨new, later⟩
  · rfl
  · obtain ⟨_, _, _, rfl⟩ := add?_eq_some.1 eq
    exact size_setLocals _ _ _

theorem opensNone_typeOfNode (node : Node) (what : Subject) : OpensNone (typeOfNode node what) := by
  apply opensNone_read.bind
  intro setting
  split
  · exact opensNone_pure _
  · exact opensNone_of_eq fun _ _ => rfl

theorem opensNone_declarations (scope : ScopeId) (declarators : List Declarator) :
    OpensNone (declarations scope declarators) := by
  induction declarators with
  | nil => exact opensNone_pure []
  | cons declarator rest ih =>
    apply (opensNone_typeOfNode _ _).bind
    intro type
    apply (opensNone_declare scope _).bind
    intro _
    apply (OpensNone.mapM (fun _ => opensNone_expr _) declarator.init).bind
    intro text
    exact ih.bind fun _ => opensNone_pure _

theorem opensNone_loopHead (scope : ScopeId) (id : NodeId) (left : ForBinding) (right : Expr) :
    OpensNone (loopHead scope id left right) := by
  have counted : OpensNone (counter id) := opensNone_of_eq fun _ _ => rfl
  apply counted.bind
  intro name
  apply (opensNone_declare scope _).bind
  intro _
  apply (opensNone_expr _).bind
  intro text
  refine OpensNone.bind ?_ fun _ => opensNone_pure _
  cases left with
  | declare declarator =>
    apply (opensNone_typeOfNode _ _).bind
    intro type
    exact (opensNone_declare scope _).bind fun _ => opensNone_pure _
  | target e => exact opensNone_expr _

theorem opensNone_selection (scope : ScopeId) (id : NodeId) (discriminant : Expr) :
    OpensNone (selection scope id discriminant) := by
  apply opensNone_read.bind
  intro setting
  apply (opensNone_expr _).bind
  intro text
  split
  · exact opensNone_pure _
  · have named : OpensNone (temporary id "tmp_switch") := opensNone_of_eq fun _ _ => rfl
    apply named.bind
    intro name
    apply (opensNone_declare scope _).bind
    intro _
    exact (opensNone_expr _).bind fun _ => opensNone_pure _

theorem opensNone_loopStart (scope : ScopeId) (init : Option ForInit) :
    OpensNone (loopStart scope init) := by
  rcases init with _ | (declarators | e)
  · exact opensNone_pure _
  · exact (opensNone_declarations scope declarators).bind fun _ => opensNone_pure _
  · exact (opensNone_expr _).bind fun _ => opensNone_pure _

theorem opensNone_label (select : Selection) (index : Nat) (test : Expr) :
    OpensNone (label select index test) := by
  apply (opensNone_expr _).bind
  intro text
  cases select <;> exact opensNone_pure _

theorem opensNone_expressionStatement (e : Expr) : OpensNone (expressionStatement e) := by
  unfold expressionStatement
  split
  · apply opensNone_read.bind
    intro setting
    exact (opensNone_expr _).bind fun _ => opensNone_expr _
  · exact (opensNone_expr _).bind fun _ => opensNone_pure _

theorem opensNone_importHeader (path : String) : OpensNone (importHeader path) := by
  apply opensNone_read.bind
  intro setting
  split
  · exact opensNone_expr _
  · exact opensNone_pure _

theorem opensNone_returned (scope : ScopeId) (value : Option Expr) :
    OpensNone (returned scope value) := by
  apply (OpensNone.mapM (fun _ => opensNone_expr _) value).bind
  intro text
  refine OpensNone.bind ?_ fun _ => opensNone_pure _
  intro σ w
  rw [releases, askScopes, get_bind]
  cases w.scopes.releases? scope (value.bind Expr.ident?) <;> rfl

/-! ## Names that heads introduce -/

/-- The counter of a loop is the name that its node keeps. -/
theorem loopLocals_eq {id : NodeId} {left : ForBinding} {right : Expr} {names : Names}
    {index collection target : String}
    (run : loopHead scope id left right σ w = (.ok (index, collection, target), w'))
    (given : w'.names.Given names) :
    loopLocals σ.types names id left = ⟨index, .number⟩ :: bindingLocals σ.types left := by
  have found := (loopHead_ok run).1
  rw [loopLocals, Names.counter_of_lookup (given.counters found)]

/-- The temporary of a `switch` is the name that its node keeps. -/
theorem switchLocals_eq {id : NodeId} {discriminant : Expr} {names : Names} {select : Selection}
    (run : selection scope id discriminant σ w = (.ok select, w'))
    (given : w'.names.Given names) :
    switchLocals σ.types names id discriminant = select.locals := by
  rw [switchLocals]
  obtain ⟨text, _, -, ⟨isNumber, rfl⟩ | ⟨notNumber, subject, rfl, found⟩⟩ := selection_ok run
  · rw [if_pos isNumber]
    rfl
  · rw [if_neg notNumber, Names.temporary_of_lookup (given.temporaries found)]
    rfl

/-! ## Statements -/

theorem OpensNone.size_eq {m : EmitM α} (opens : OpensNone m) {result : Except EmitError α}
    (run : m σ w = (result, w')) : w'.scopes.size = w.scopes.size := by
  have size := opens σ w
  rwa [run] at size

section Heads

variable {home : ScopeId} (around : w.scopes.Encloses home scope)
include around

/-- The head of a statement introduces locals and opens no scope. -/
theorem extends_of_run {m : EmitM α} {a : α} (evolving : Evolving m) (opens : OpensNone m)
    (run : m σ w = (.ok a, w')) (xs : List Variable) :
    Extends (some home) xs [] (xs.map (⟨scope, home, ·⟩)) w.scopes w'.scopes :=
  .of_head (evolving.evolves run).scopes (opens.size_eq run) around xs

theorem extends_expr {action : Types → ExprM α} {a : α} (run : expr action σ w = (.ok a, w')) :
    Extends (some home) [] [] [] w.scopes w'.scopes :=
  extends_of_run around (evolving_expr action) (opensNone_expr action) run []

theorem extends_mapM {part : Option α} {action : α → Types → ExprM β} {result : Option β}
    (run : part.mapM (fun a => expr (action a)) σ w = (.ok result, w')) :
    Extends (some home) [] [] [] w.scopes w'.scopes :=
  extends_of_run around (Evolving.mapM (fun _ => evolving_expr _) part)
    (OpensNone.mapM (fun _ => opensNone_expr _) part) run []

theorem extends_returned {value : Option Expr} {c : CStmt}
    (run : returned scope value σ w = (.ok c, w')) :
    Extends (some home) [] [] [] w.scopes w'.scopes :=
  extends_of_run around (evolving_returned scope value) (opensNone_returned scope value) run []

theorem extends_selection {id : NodeId} {discriminant : Expr} {select : Selection}
    (run : selection scope id discriminant σ w = (.ok select, w')) :
    Extends (some home) select.locals [] (select.locals.map (⟨scope, home, ·⟩)) w.scopes
      w'.scopes :=
  extends_of_run around (evolving_selection scope id discriminant)
    (opensNone_selection scope id discriminant) run select.locals

theorem extends_loopStart {init : Option ForInit} {result : Option (List Assignment) × String}
    (run : loopStart scope init σ w = (.ok result, w')) :
    Extends (some home) (startLocals σ.types init) []
      ((startLocals σ.types init).map (⟨scope, home, ·⟩)) w.scopes w'.scopes :=
  extends_of_run around (evolving_loopStart scope init) (opensNone_loopStart scope init) run
    (startLocals σ.types init)

theorem extends_loopHead {id : NodeId} {left : ForBinding} {right : Expr}
    {index collection target : String}
    (run : loopHead scope id left right σ w = (.ok (index, collection, target), w')) :
    Extends (some home) (⟨index, .number⟩ :: bindingLocals σ.types left) []
      ((⟨index, .number⟩ :: bindingLocals σ.types left).map (⟨scope, home, ·⟩)) w.scopes
      w'.scopes :=
  extends_of_run around (evolving_loopHead scope id left right)
    (opensNone_loopHead scope id left right) run (⟨index, .number⟩ :: bindingLocals σ.types left)

theorem extends_label {test : Option Expr} {select : Selection} {index : Nat}
    {found : Option (String × List String)}
    (run : test.mapM (label select index) σ w = (.ok found, w')) :
    Extends (some home) [] [] [] w.scopes w'.scopes :=
  extends_of_run around (Evolving.mapM (fun _ => evolving_label select index _) test)
    (OpensNone.mapM (fun _ => opensNone_label select index _) test) run []

end Heads

/-- A new scope comes after all others. -/
theorem newChild_shape {inner : ScopeId} (opened : newChild scope σ w = (.ok inner, w')) :
    inner = w.scopes.size ∧ w.scopes.Evolves w'.scopes ∧
      ∃ func, w'.scopes = ⟨w.scopes.scopes ++ [⟨some scope, func, []⟩]⟩ := by
  obtain ⟨made, -, -⟩ := newChild_ok.1 opened
  obtain ⟨outer, -, rfl, later⟩ := newChild?_eq_some.1 made
  exact ⟨rfl, .single (.child made), outer.func, later⟩

theorem parent?_newChild {inner : ScopeId} (opened : newChild scope σ w = (.ok inner, w')) :
    w'.scopes.parent? inner = some (some scope) := by
  obtain ⟨rfl, -, func, later⟩ := newChild_shape opened
  rw [parent?, later, find?_push, if_pos rfl]
  rfl

theorem openings_switch (select : Selection) (comparisons : List String) (cases : List CStmt) :
    (select.switch comparisons cases).openings = listOpenings cases := by
  cases select <;> rw [Selection.switch, CStmt.openings]

theorem openings_forOf (dynamic : Bool) (index array cast target : String) (capacity : Nat)
    (statements : List CStmt) :
    (if dynamic then CStmt.forDynamic index array cast target statements
      else .forFixed index capacity array cast target statements).openings =
        .moved :: listOpenings statements := by
  cases dynamic <;> rfl

/-- Braces do not change what a block declares. -/
theorem blockOpenings_force (b : Block CStmt) (forceBraces : Bool) :
    blockOpenings { b with forceBraces } = blockOpenings b := by
  cases b
  rfl

mutual

/-- A statement has as many scopes in C as it opens. -/
theorem Emits.length_openings : ∀ {scope : ScopeId} {s : Stmt} {w w' : Workspace} {c : CStmt}
    {xs : List Variable}, Emits σ scope s w c xs w' → c.openings.length = s.scopeCount
  | _, _, _, _, _, _, .breakStmt .. => rfl
  | _, _, _, _, _, _, .continueStmt .. => rfl
  | _, _, _, _, _, _, .emptyStmt .. => rfl
  | _, _, _, _, _, _, .returnStmt run => by
      obtain ⟨_, _, rfl, -⟩ := returned_ok run
      rfl
  | _, _, _, _, _, _, .ifThen _ yes => yes.length_openings
  | _, _, _, _, _, _, .ifElse _ yes no => by
      rw [CStmt.openings, blockOpenings_force, List.length_append, yes.length_openings,
        no.length_openings]
      rfl
  | _, _, _, _, _, _, .switchOn _ each => by
      rw [openings_switch]
      exact each.length_openings
  | _, _, _, _, _, _, .whileLoop _ loop => loop.length_openings
  | _, _, _, _, _, _, .doLoop loop _ => loop.length_openings
  | _, _, _, _, _, _, .forLoop _ _ _ loop => loop.length_openings
  | _, _, _, _, _, _, .forOf _ _ loop => by
      rw [openings_forOf, List.length_cons, loop.length_openings, Stmt.scopeCount, rowScopes,
        rowScopes]
      exact Nat.add_comm _ 1
  | _, _, _, _, _, _, .forIn _ _ _ loop => by
      rw [CStmt.openings, List.length_cons, loop.length_openings]
      exact Nat.add_comm _ 1
  | _, _, _, _, _, _, .expression _ => rfl
  | _, _, _, _, _, _, .block inner => inner.length_openings
  | _, _, _, _, _, _, .importFrom _ => rfl
  | _, _, _, _, _, _, .declaration _ => rfl

theorem EmitsAll.length_openings : ∀ {scope : ScopeId} {body : List Stmt} {w w' : Workspace}
    {cs : List CStmt} {xs : List Variable}, EmitsAll σ scope body w cs xs w' →
      (listOpenings cs).length = rowScopes body
  | _, _, _, _, _, _, .nil .. => rfl
  | _, _, _, _, _, _, .cons first others => by
      rw [listOpenings, List.length_append, first.length_openings, others.length_openings]
      rfl

theorem EmitsBlock.length_openings : ∀ {scope : ScopeId} {body : List Stmt} {w w' : Workspace}
    {b : Block CStmt}, EmitsBlock σ scope body w b w' →
      (blockOpenings b).length = 1 + rowScopes body
  | _, _, _, _, _, .intro _ all _ => by
      rw [blockOpenings, List.length_cons, all.length_openings]
      exact Nat.add_comm _ 1

theorem EmitsHoisted.length_openings : ∀ {scope : ScopeId} {body : List Stmt} {w w' : Workspace}
    {cs : List CStmt} {xs : List Variable}, EmitsHoisted σ scope body w cs xs w' →
      (listOpenings cs).length = rowScopes body
  | _, _, _, _, _, _, .intro _ all _ => all.length_openings

theorem EmitsClauses.length_openings : ∀ {scope : ScopeId} {select : Selection} {index : Nat}
    {list : List (Clause Stmt)} {w w' : Workspace} {comparisons : List String} {cases : List CStmt}
    {xs : List Variable}, EmitsClauses σ scope select index list w comparisons cases xs w' →
      (listOpenings cases).length = clauseScopes list
  | _, _, _, _, _, _, _, _, _, .nil .. => rfl
  | _, _, _, _, _, _, _, _, _, .cons _ first others => by
      rw [listOpenings, List.length_append, others.length_openings, CStmt.openings,
        List.length_cons, first.length_openings, clauseScopes, Nat.add_comm 1]

end

variable {names : Names}

mutual

/-- **What a statement lays out.** Emitting a statement extends the tree by the scopes of its C
form, with what the statement introduces. -/
theorem Emits.extends : ∀ {scope home : ScopeId} {s : Stmt} {w w' : Workspace} {c : CStmt}
    {xs : List Variable}, Emits σ scope s w c xs w' → w.scopes.Encloses home scope →
      w'.names.Given names → Extends (some home) xs c.openings
        (s.introductions σ.types names scope home w.scopes.size) w.scopes w'.scopes
  | _, _, _, _, _, _, _, .breakStmt .., around, _ => .of_head .refl rfl around []
  | _, _, _, _, _, _, _, .continueStmt .., around, _ => .of_head .refl rfl around []
  | _, _, _, _, _, _, _, .emptyStmt .., around, _ => .of_head .refl rfl around []
  | _, _, _, _, _, _, _, .returnStmt run, around, _ => by
      have head := extends_returned around run
      obtain ⟨_, _, rfl, -⟩ := returned_ok run
      exact head
  | _, _, _, _, _, _, _, .ifThen head yes, around, given => by
      have start := extends_expr around head
      have around' := start.evolves.encloses around
      have block := yes.extends around' given
      rw [start.size_eq] at block
      exact start.next block (yes.frame (isScope_of_encloses around')) around
  | _, _, _, _, _, _, _, .ifElse head yes no, around, given => by
      have start := extends_expr around head
      have around' := start.evolves.encloses around
      have first := yes.extends around' (no.evolves.given.trans given)
      have around'' := first.evolves.encloses around'
      have second := no.extends around'' given
      rw [first.size, yes.length_openings, start.size_eq] at second
      rw [start.size_eq] at first
      have frame := no.frame (isScope_of_encloses around'')
      rw [CStmt.openings, blockOpenings_force]
      exact start.next (first.next second frame around')
        ((yes.frame (isScope_of_encloses around')).trans frame) around
  | _, _, _, _, _, _, _, .switchOn head each, around, given => by
      have start := extends_selection around head
      have around' := start.evolves.encloses around
      have rest := each.extends around' given
      rw [start.size_eq] at rest
      rw [openings_switch, Stmt.introductions,
        switchLocals_eq head (each.evolves.given.trans given)]
      exact start.next rest (each.frame (isScope_of_encloses around')) around
  | _, _, _, _, _, _, _, .whileLoop head loop, around, given => by
      have start := extends_expr around head
      have around' := start.evolves.encloses around
      have block := loop.extends around' given
      rw [start.size_eq] at block
      exact start.next block (loop.frame (isScope_of_encloses around')) around
  | scope, _, _, _, _, _, _, .doLoop loop last, around, given => by
      have evolves := (evolving_expr _).evolves last
      have block := loop.extends around (evolves.given.trans given)
      have ending := extends_expr (block.evolves.encloses around) last
      have all := block.next ending (frame_expr scope last) around
      simp only [List.append_nil] at all
      exact all
  | _, _, _, _, _, _, _, .forLoop start head step loop, around, given => by
      have first := extends_loopStart around start
      have around₁ := first.evolves.encloses around
      have second := extends_mapM around₁ head
      have around₂ := second.evolves.encloses around₁
      have third := extends_mapM around₂ step
      have around₃ := third.evolves.encloses around₂
      have block := loop.extends around₃ given
      rw [third.size_eq, second.size_eq, first.size_eq] at block
      have frame := loop.frame (isScope_of_encloses around₃)
      have frame' := (frame_mapM step).trans frame
      have all := first.next (second.next (third.next block frame around₂) frame' around₁)
        ((frame_mapM head).trans frame') around
      simp only [List.append_nil, List.nil_append] at all
      exact all
  | _, _, _, _, _, _, _, .forOf _ head loop, around, given => by
      have start := extends_loopHead around head
      have around' := start.evolves.encloses around
      have rest := loop.extends around' given
      rw [start.size_eq, rowIntroductions, rowIntroductions, List.append_nil] at rest
      rw [openings_forOf, Stmt.introductions, loopLocals_eq head (loop.evolves.given.trans given)]
      exact start.next rest (loop.frame (isScope_of_encloses around')) around
  | _, _, _, _, _, _, _, .forIn _ _ head loop, around, given => by
      have start := extends_loopHead around head
      have around' := start.evolves.encloses around
      have rest := loop.extends around' given
      rw [start.size_eq] at rest
      rw [Stmt.introductions, loopLocals_eq head (loop.evolves.given.trans given)]
      exact start.next rest (loop.frame (isScope_of_encloses around')) around
  | _, _, _, _, _, _, _, .expression run, around, _ =>
      extends_of_run around (evolving_expressionStatement _) (opensNone_expressionStatement _) run
        []
  | _, _, _, _, _, _, _, .block inner, around, given => inner.extends around given
  | _, _, _, _, _, _, _, .importFrom run, around, _ =>
      extends_of_run around (evolving_importHeader _) (opensNone_importHeader _) run []
  | _, _, _, _, _, _, _, .declaration run, around, _ =>
      extends_of_run around (evolving_declarations _ _) (opensNone_declarations _ _) run _

theorem EmitsAll.extends : ∀ {scope home : ScopeId} {body : List Stmt} {w w' : Workspace}
    {cs : List CStmt} {xs : List Variable}, EmitsAll σ scope body w cs xs w' →
      w.scopes.Encloses home scope → w'.names.Given names →
        Extends (some home) xs (listOpenings cs)
          (rowIntroductions σ.types names scope home w.scopes.size body) w.scopes w'.scopes
  | _, _, _, _, _, _, _, .nil .., around, _ => .of_head .refl rfl around []
  | _, _, _, _, _, _, _, .cons first others, around, given => by
      have start := first.extends around (others.evolves.given.trans given)
      have around' := start.evolves.encloses around
      have rest := others.extends around' given
      rw [start.size, first.length_openings] at rest
      exact start.next rest (others.frame (isScope_of_encloses around')) around

theorem EmitsBlock.extends : ∀ {scope home : ScopeId} {body : List Stmt} {w w' : Workspace}
    {b : Block CStmt}, EmitsBlock σ scope body w b w' → w.scopes.Encloses home scope →
      w'.names.Given names → Extends (some home) [] (blockOpenings b)
        (rowIntroductions σ.types names w.scopes.size w.scopes.size (w.scopes.size + 1) body)
        w.scopes w'.scopes
  | _, _, _, _, _, _, .intro opened all kept, around, given => by
      have locals := locals_of_block opened all kept
      obtain ⟨number, opens, func, later⟩ := newChild_shape opened
      have size := congrArg ScopeTree.size later
      rw [size_push] at size
      have inside := all.extends (.self (number.trans_lt (size ▸ Nat.lt_succ_self _))) given
      subst number
      rw [size, later] at inside
      rw [later] at opens
      refine inside.enter opens ?_ locals rfl ?_
      · rw [← locals]
        exact (localsOf_ok.1 kept).1
      · rintro _ ⟨⟩
        exact lt_size_of_encloses around

theorem EmitsHoisted.extends : ∀ {scope home : ScopeId} {body : List Stmt} {w w' : Workspace}
    {cs : List CStmt} {xs : List Variable}, EmitsHoisted σ scope body w cs xs w' →
      w.scopes.Encloses home scope → w'.names.Given names →
        Extends (some home) xs (.moved :: listOpenings cs)
          (rowIntroductions σ.types names w.scopes.size home (w.scopes.size + 1) body)
          w.scopes w'.scopes
  | _, home, _, _, _, _, _, .intro opened all moved, around, given => by
      obtain ⟨number, opens, func, later⟩ := newChild_shape opened
      have around' : Encloses _ home _ :=
        .parent (parent?_newChild opened) (opens.encloses around)
      obtain ⟨⟨_, _, drained, extended⟩, sameNames, -⟩ := hoist_ok.1 moved
      have inside := all.extends around' (sameNames ▸ given)
      have size := congrArg ScopeTree.size later
      rw [size_push] at size
      subst number
      rw [size, later] at inside
      rw [later] at opens
      refine inside.leave opens rfl drained extended (isScope_of_encloses around) ?_
      rintro _ ⟨⟩
      exact lt_size_of_encloses around

theorem EmitsClauses.extends : ∀ {scope home : ScopeId} {select : Selection} {index : Nat}
    {list : List (Clause Stmt)} {w w' : Workspace} {comparisons : List String} {cases : List CStmt}
    {xs : List Variable}, EmitsClauses σ scope select index list w comparisons cases xs w' →
      w.scopes.Encloses home scope → w'.names.Given names →
        Extends (some home) xs (listOpenings cases)
          (clauseIntroductions σ.types names home w.scopes.size list) w.scopes w'.scopes
  | _, _, _, _, _, _, _, _, _, _, .nil .., around, _ => .of_head .refl rfl around []
  | _, _, _, _, _, _, _, _, _, _, .cons head first others, around, given => by
      have start := extends_label around head
      have around' := start.evolves.encloses around
      have part := first.extends around' (others.evolves.given.trans given)
      have around'' := part.evolves.encloses around'
      have rest := others.extends around'' given
      rw [part.size, List.length_cons, first.length_openings, start.size_eq,
        Nat.add_comm (rowScopes _)] at rest
      rw [start.size_eq] at part
      have frame := others.frame (isScope_of_encloses around'')
      exact start.next (part.next rest frame around')
        ((first.frame (isScope_of_encloses around')).trans frame) around

end

end Emit

end ScriptToC
