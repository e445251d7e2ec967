import ScriptToC.Proofs.Emission.Texts
import ScriptToC.Proofs.Errors.Statements
import ScriptToC.Proofs.Hoisting.Introductions
import ScriptToC.Proofs.Release.Layers

/-!
# Emitting a statement again

Two runs of a statement are compared that start from different workspaces. The scopes they open have
different numbers, and other names and headers may have come in between. What the statement becomes
depends on three things: the locals of the scopes around the place where it stands, the names that
its nodes were given, and the types. If the second run finds the same locals around its place
(`Meets`) and the names of the first run given already, it makes the same steps (`Repeats`), down to
every nested block (`repeats_stmt`).

A node that was given a name keeps it, whatever happens in between. So a statement that was emitted
once becomes the same text again, wherever its scopes have the same locals as then
(`stmtText_again`).
-/

set_option autoImplicit false

namespace ScriptToC

open Ir ScopeTree

namespace Emit

open Workspace (Evolves)

variable {α β : Type} {scope scope' : ScopeId} {σ : Setting} {w w' v v' : Workspace}

/-! ## Two runs -/

/-- In both workspaces the locals around the place are the same, scope by scope. -/
def Meets (scope scope' : ScopeId) (w v : Workspace) : Prop :=
  ∃ layers, w.scopes.Layered scope layers ∧ v.scopes.Layered scope' layers

/-- Where a run of the first step succeeds, a run of the second one that has the same locals around
its place and knows the names of the first has the same result. -/
structure Repeats (scope scope' : ScopeId) (m m' : EmitM α) : Prop where
  evolving : Evolving m
  evolving' : Evolving m'
  again : ∀ {σ : Setting} {w w' v : Workspace} {a : α}, Meets scope scope' w v →
    m σ w = (.ok a, w') → w'.names.Given v.names →
      ∃ v', m' σ v = (.ok a, v') ∧ Meets scope scope' w' v'

/-- The same locals are around the place while both runs leave the scopes alone. -/
theorem Meets.of_scopes_eq (meets : Meets scope scope' w v) (same : w'.scopes = w.scopes)
    (same' : v'.scopes = v.scopes) : Meets scope scope' w' v' := by
  rw [Meets, same, same']
  exact meets

/-- The place exists in the second workspace. -/
theorem Meets.isScope (meets : Meets scope scope' w v) : scope' < v.scopes.size := by
  obtain ⟨_, _, shown'⟩ := meets
  exact shown'.isScope

/-- The same locals are introduced at the place in both runs. -/
theorem Meets.next {xs : List Variable} (meets : Meets scope scope' w v)
    (evolves : w.Evolves w') (evolves' : v.Evolves v') (frame : Frame scope xs w.scopes w'.scopes)
    (frame' : Frame scope' xs v.scopes v'.scopes) : Meets scope scope' w' v' := by
  obtain ⟨layers, shown, shown'⟩ := meets
  obtain ⟨own, around, rfl⟩ := shown.layers.exists_cons
  exact ⟨_, shown.next evolves.scopes frame, shown'.next evolves'.scopes frame'⟩

theorem repeats_pure (a : α) : Repeats scope scope' (pure a) (pure a) where
  evolving := evolving_pure a
  evolving' := evolving_pure a
  again := by
    intro σ w w' v b meets run _
    obtain ⟨rfl, rfl⟩ := pure_ok.1 run
    exact ⟨v, rfl, meets⟩

theorem repeats_throw (cause : EmitError) :
    Repeats scope scope' (throw cause : EmitM α) (throw cause) where
  evolving := evolving_throw cause
  evolving' := evolving_throw cause
  again := fun _ run _ => absurd run throw_ok

theorem repeats_read : Repeats scope scope' (read : EmitM Setting) read where
  evolving := evolving_read
  evolving' := evolving_read
  again := by
    intro σ w w' v b meets run _
    cases run
    exact ⟨v, rfl, meets⟩

/-- The first steps repeat, and then those that follow on the same result. -/
theorem Repeats.bind {m m' : EmitM α} {next next' : α → EmitM β} (first : Repeats scope scope' m m')
    (others : ∀ a, Repeats scope scope' (next a) (next' a)) :
    Repeats scope scope' (m >>= next) (m' >>= next') where
  evolving := first.evolving.bind fun a => (others a).evolving
  evolving' := first.evolving'.bind fun a => (others a).evolving'
  again := by
    intro σ w w' v b meets run given
    obtain ⟨a, middle, ran, rest⟩ := bind_ok.1 run
    have later := ((others a).evolving.evolves rest).given
    obtain ⟨middle', ran', meets⟩ := first.again meets ran (later.trans given)
    have kept := (first.evolving'.evolves ran').given
    obtain ⟨v', rest', meets⟩ := (others a).again meets rest (given.trans kept)
    exact ⟨v', bind_ok.2 ⟨a, middle', ran', rest'⟩, meets⟩

theorem Repeats.map {m m' : EmitM α} (f : α → β) (step : Repeats scope scope' m m') :
    Repeats scope scope' (f <$> m) (f <$> m') := by
  rw [map_eq_pure_bind, map_eq_pure_bind]
  exact step.bind fun a => repeats_pure (f a)

theorem Repeats.mapM {step step' : α → EmitM β}
    (each : ∀ a, Repeats scope scope' (step a) (step' a)) (part : Option α) :
    Repeats scope scope' (part.mapM step) (part.mapM step') := by
  cases part with
  | none => exact repeats_pure none
  | some a => exact (each a).map some

/-! ## Basic steps -/

theorem repeats_expr {action : Types → ExprM α} (blind : ∀ types, Blind (action types)) :
    Repeats scope scope' (expr action) (expr action) where
  evolving := evolving_expr action
  evolving' := evolving_expr action
  again := by
    intro σ w w' v a meets run _
    have result : (action σ.types v.headers).1 = .ok a :=
      (blind σ.types v.headers w.headers).trans (congrArg Prod.fst run)
    exact ⟨(expr action σ v).2, Prod.ext result rfl, meets.of_scopes_eq (expr_ok run).1 rfl⟩

theorem repeats_declare (x : Variable) :
    Repeats scope scope' (declare scope x) (declare scope' x) where
  evolving := evolving_declare scope x
  evolving' := evolving_declare scope' x
  again := by
    intro σ w w' v _ meets run _
    obtain ⟨new, later, added, -⟩ := exists_add? meets.isScope x
    have run' : declare scope' x σ v = (.ok (), { v with scopes := later }) :=
      declare_ok.2 ⟨⟨new, added⟩, rfl, rfl⟩
    exact ⟨_, run', meets.next ((evolving_declare scope x).evolves run)
      ((evolving_declare scope' x).evolves run') (frame_declare run) (frame_declare run')⟩

theorem repeats_releases (returned : Option String) :
    Repeats scope scope' (releases scope returned) (releases scope' returned) where
  evolving := evolving_releases scope returned
  evolving' := evolving_releases scope' returned
  again := by
    intro σ w w' v list meets run _
    obtain ⟨layers, shown, shown'⟩ := meets
    obtain ⟨plan, rfl⟩ := releases_ok.1 run
    have same := (shown'.releases?_eq returned).trans (shown.releases?_eq returned).symm
    exact ⟨v, releases_ok.2 ⟨same.trans plan, rfl⟩, layers, shown, shown'⟩

/-- A node that was given a counter in the first run has the same one in the second. -/
theorem repeats_counter (id : NodeId) : Repeats scope scope' (counter id) (counter id) where
  evolving := evolving_counter id
  evolving' := evolving_counter id
  again := by
    intro σ w w' v name meets run given
    obtain ⟨named, scopes, -⟩ := counter_ok.1 run
    have found := (Names.counter_given w.names id).1
    rw [named] at found
    have same : (v.names.counter id).1 = name := Names.counter_of_lookup (given.counters found)
    exact ⟨{ v with names := (v.names.counter id).2 }, counter_ok.2 ⟨Prod.ext same rfl, rfl, rfl⟩,
      meets.of_scopes_eq scopes rfl⟩

/-- A node that was given a temporary in the first run has the same one in the second. -/
theorem repeats_temporary (id : NodeId) (hint : String) :
    Repeats scope scope' (temporary id hint) (temporary id hint) where
  evolving := evolving_temporary id hint
  evolving' := evolving_temporary id hint
  again := by
    intro σ w w' v name meets run given
    obtain ⟨named, scopes, -⟩ := temporary_ok.1 run
    have found := (Names.temporary_given w.names id hint).1
    rw [named] at found
    have same : (v.names.temporary id hint).1 = name :=
      Names.temporary_of_lookup (given.temporaries found)
    exact ⟨{ v with names := (v.names.temporary id hint).2 },
      temporary_ok.2 ⟨Prod.ext same rfl, rfl, rfl⟩, meets.of_scopes_eq scopes rfl⟩

theorem repeats_typeOfNode (node : Node) (what : Subject) :
    Repeats scope scope' (typeOfNode node what) (typeOfNode node what) := by
  apply repeats_read.bind
  intro setting
  split
  · exact repeats_pure _
  · exact repeats_throw _

/-! ## New scopes -/

/-- A scope that is opened inside has the same locals around it. -/
theorem Meets.opening {inner : ScopeId} {opened : Workspace} (meets : Meets scope scope' w v)
    (run : newChild scope σ w = (.ok inner, opened)) :
    ∃ inner' opened', newChild scope' σ v = (.ok inner', opened') ∧
      Meets inner inner' opened opened' := by
  obtain ⟨around, found⟩ := exists_find? meets.isScope
  obtain ⟨layers, shown, shown'⟩ := meets
  have run' : newChild scope' σ v = (.ok v.scopes.size,
      { v with scopes := ⟨v.scopes.scopes ++ [⟨some scope', around.func, []⟩]⟩ }) :=
    newChild_ok.2 ⟨newChild?_eq_some.2 ⟨around, found, rfl, rfl⟩, rfl, rfl⟩
  exact ⟨_, _, run', _, layered_newChild shown run, layered_newChild shown' run'⟩

/-- A scope that was opened stays where it was. -/
theorem parent?_of_newChild {inner : ScopeId} {opened closed : Workspace}
    (run : newChild scope σ w = (.ok inner, opened)) (evolves : opened.Evolves closed) :
    closed.scopes.parent? inner = some (some scope) := by
  obtain ⟨_, found, isParent⟩ := parent?_eq_some.1 (parent?_newChild run)
  obtain ⟨_, found', same, -⟩ := evolves.scopes.keeps found
  exact parent?_eq_some.2 ⟨_, found', same.trans isParent⟩

/-- Both runs are done with a scope that they opened inside. The locals around the place are the
same, and the scope got the same locals. -/
structure Leaves (scope scope' inner inner' : ScopeId) (w v : Workspace) (own : List Variable) :
    Prop where
  meets : Meets scope scope' w v
  inside : scope < inner
  inside' : scope' < inner'
  has : w.scopes.locals? inner = some own
  has' : v.scopes.locals? inner' = some own

theorem Meets.leaves {inner inner' : ScopeId} (meets : Meets inner inner' w v)
    (isParent : w.scopes.parent? inner = some (some scope))
    (isParent' : v.scopes.parent? inner' = some (some scope')) :
    ∃ own, Leaves scope scope' inner inner' w v own := by
  obtain ⟨layers, shown, shown'⟩ := meets
  obtain ⟨own, around, rfl, outer⟩ := shown.layers.outer isParent
  obtain ⟨_, _, same, outer'⟩ := shown'.layers.outer isParent'
  cases same
  have lt {tree : ScopeTree} {id parent : ScopeId} (wf : tree.WellFormed)
      (isParent : tree.parent? id = some (some parent)) : parent < id := by
    obtain ⟨_, found, isParent⟩ := parent?_eq_some.1 isParent
    exact wf.parent_lt found isParent
  exact ⟨own, ⟨around, ⟨shown.wellFormed, outer⟩, shown'.wellFormed, outer'⟩,
    lt shown.wellFormed isParent, lt shown'.wellFormed isParent', shown.layers.locals?_eq,
    shown'.layers.locals?_eq⟩

/-- What happens in a scope that both runs open repeats. -/
theorem Meets.inside {inner : ScopeId} {opened closed : Workspace} {a : α} {m : ScopeId → EmitM α}
    (meets : Meets scope scope' w v)
    (each : ∀ inner inner', Repeats inner inner' (m inner) (m inner'))
    (made : newChild scope σ w = (.ok inner, opened)) (all : m inner σ opened = (.ok a, closed))
    (given : closed.names.Given v.names) :
    ∃ inner' opened' closed', newChild scope' σ v = (.ok inner', opened') ∧
      m inner' σ opened' = (.ok a, closed') ∧
      ∃ own, Leaves scope scope' inner inner' closed closed' own := by
  obtain ⟨inner', opened', made', inside⟩ := meets.opening made
  have opens := ((evolving_newChild scope').evolves made').given
  obtain ⟨closed', all', inside⟩ := (each inner inner').again inside all (given.trans opens)
  exact ⟨inner', opened', closed', made', all',
    inside.leaves (parent?_of_newChild made ((each inner inner').evolving.evolves all))
      (parent?_of_newChild made' ((each inner inner').evolving'.evolves all'))⟩

theorem repeats_block {body : ScopeId → EmitM (List CStmt)}
    (each : ∀ inner inner', Repeats inner inner' (body inner) (body inner')) :
    Repeats scope scope' (block scope body) (block scope' body) where
  evolving := evolving_block scope fun inner => (each inner inner).evolving
  evolving' := evolving_block scope' fun inner => (each inner inner).evolving
  again := by
    intro σ w w' v b meets run given
    obtain ⟨inner, opened, cs, locals, made, all, kept, rfl⟩ := block_ok.1 run
    obtain ⟨inner', opened', v', made', all', own, leaves⟩ := meets.inside each made all given
    obtain rfl : locals = own := Option.some.inj ((localsOf_ok.1 kept).1.symm.trans leaves.has)
    exact ⟨v', block_ok.2 ⟨inner', opened', cs, locals, made', all',
      localsOf_ok.2 ⟨leaves.has', rfl⟩, rfl⟩, leaves.meets⟩

/-- Emptying a scope inside leaves the locals around the place alone. -/
theorem layered_drain {tree : ScopeTree} {inner : ScopeId} {layers : List (List Variable)}
    (shown : tree.Layered scope layers) (inside : scope < inner) {moved : List Variable}
    {later : ScopeTree} (drained : tree.drain? inner = some (moved, later)) :
    later.Layered scope layers := by
  have step : tree.Evolves later := .single (.drain drained)
  refine ⟨step.wellFormed shown.wellFormed, shown.layers.kept shown.wellFormed step ?_⟩
  intro outer le
  obtain ⟨-, rfl⟩ := drain?_eq_some.1 drained
  rw [locals?_setLocals, if_neg (Nat.ne_of_lt (Nat.lt_of_le_of_lt le inside))]

/-- The locals of a scope inside move to the place in both runs. -/
theorem Leaves.hoist {inner inner' : ScopeId} {own : List Variable}
    (leaves : Leaves scope scope' inner inner' w v own)
    (moves : Emit.hoist inner scope σ w = (.ok (), w')) :
    ∃ v', Emit.hoist inner' scope' σ v = (.ok (), v') ∧ Meets scope scope' w' v' := by
  obtain ⟨⟨layers, shown, shown'⟩, inside, inside', found, found'⟩ := leaves
  obtain ⟨⟨moved, tree, drained, extended⟩, -, -⟩ := hoist_ok.1 moves
  obtain rfl : moved = own := Option.some.inj ((drain?_eq_some.1 drained).1.symm.trans found)
  have drained' := drain?_eq_some.2 ⟨found', rfl⟩
  have kept := layered_drain shown inside drained
  have kept' := layered_drain shown' inside' drained'
  obtain ⟨later, extended'⟩ := exists_extend? kept'.isScope moved
  obtain ⟨own, around, rfl⟩ := kept.layers.exists_cons
  exact ⟨{ v with scopes := later }, hoist_ok.2 ⟨⟨moved, _, drained', extended'⟩, rfl, rfl⟩, _,
    kept.next (evolves_of_extend? extended) (frame_extend extended),
    kept'.next (evolves_of_extend? extended') (frame_extend extended')⟩

theorem repeats_hoisted {body : ScopeId → EmitM (List CStmt)}
    (each : ∀ inner inner', Repeats inner inner' (body inner) (body inner')) :
    Repeats scope scope' (hoisted scope body) (hoisted scope' body) where
  evolving := evolving_hoisted scope fun inner => (each inner inner).evolving
  evolving' := evolving_hoisted scope' fun inner => (each inner inner).evolving
  again := by
    intro σ w w' v cs meets run given
    obtain ⟨inner, opened, closed, made, all, moves⟩ := hoisted_ok.1 run
    have names := (hoist_ok.1 moves).2.1
    obtain ⟨inner', opened', closed', made', all', own, leaves⟩ :=
      meets.inside each made all (names ▸ given)
    obtain ⟨v', moves', meets⟩ := leaves.hoist moves
    exact ⟨v', hoisted_ok.2 ⟨inner', opened', closed', made', all', moves'⟩, meets⟩

/-! ## Parts of statements -/

theorem repeats_returned (value : Option Expr) :
    Repeats scope scope' (returned scope value) (returned scope' value) := by
  apply (Repeats.mapM (fun e => repeats_expr fun types => blind_exprText types e) value).bind
  intro text
  apply (repeats_releases _).bind
  intro plan
  exact repeats_pure _

theorem repeats_declarations (declarators : List Declarator) :
    Repeats scope scope' (declarations scope declarators) (declarations scope' declarators) := by
  induction declarators with
  | nil => exact repeats_pure []
  | cons declarator rest ih =>
    apply (repeats_typeOfNode _ _).bind
    intro type
    apply (repeats_declare _).bind
    intro _
    apply (Repeats.mapM (fun e => repeats_expr fun types => blind_assignment types _ _ e)
      declarator.init).bind
    intro first
    apply ih.bind
    intro _
    exact repeats_pure _

theorem repeats_binding (left : ForBinding) :
    Repeats scope scope' (binding scope left) (binding scope' left) := by
  cases left with
  | declare declarator =>
    apply (repeats_typeOfNode _ _).bind
    intro type
    apply (repeats_declare _).bind
    intro _
    exact repeats_pure _
  | target e => exact repeats_expr fun types => blind_placeText types e

theorem repeats_loopHead (id : NodeId) (left : ForBinding) (right : Expr) :
    Repeats scope scope' (loopHead scope id left right) (loopHead scope' id left right) := by
  apply (repeats_counter id).bind
  intro counter
  apply (repeats_declare _).bind
  intro _
  apply (repeats_expr fun types => blind_exprText types right).bind
  intro text
  apply (repeats_binding left).bind
  intro target
  exact repeats_pure _

theorem repeats_expressionStatement (e : Expr) :
    Repeats scope scope' (expressionStatement e) (expressionStatement e) := by
  unfold expressionStatement
  split
  · apply repeats_read.bind
    intro setting
    apply (repeats_expr fun types => blind_placeText types _).bind
    intro place
    exact repeats_expr fun types => blind_assignment types place _ _
  · exact (repeats_expr fun types => blind_exprText types _).bind fun _ => repeats_pure _

theorem repeats_importHeader (path : String) :
    Repeats scope scope' (importHeader path) (importHeader path) := by
  apply repeats_read.bind
  intro setting
  split
  · exact repeats_expr fun _ => blind_needs _
  · exact repeats_pure _

theorem repeats_selection (id : NodeId) (discriminant : Expr) :
    Repeats scope scope' (selection scope id discriminant) (selection scope' id discriminant) := by
  apply repeats_read.bind
  intro setting
  apply (repeats_expr fun types => blind_exprText types discriminant).bind
  intro text
  split
  · exact repeats_pure _
  · apply (repeats_temporary id _).bind
    intro name
    apply (repeats_declare _).bind
    intro _
    apply (repeats_expr fun _ => blind_needs _).bind
    intro _
    exact repeats_pure _

theorem repeats_label (select : Selection) (index : Nat) (test : Expr) :
    Repeats scope scope' (label select index test) (label select index test) := by
  apply (repeats_expr fun types => blind_exprText types test).bind
  intro text
  cases select <;> exact repeats_pure _

theorem repeats_loopStart (init : Option ForInit) :
    Repeats scope scope' (loopStart scope init) (loopStart scope' init) := by
  rcases init with _ | (declarators | e)
  · exact repeats_pure _
  · exact (repeats_declarations declarators).bind fun _ => repeats_pure _
  · exact (repeats_expr fun types => blind_exprText types e).bind fun _ => repeats_pure _

/-! ## Statements -/

mutual

/-- **Two runs of a statement.** A statement that was emitted becomes the same again, at any place
with the same locals around it and whatever scopes, names and headers came in between. -/
theorem repeats_stmt : ∀ (scope scope' : ScopeId) (s : Stmt),
    Repeats scope scope' (stmt scope s) (stmt scope' s)
  | _, _, .breakStmt _ => by rw [stmt, stmt]; exact repeats_pure _
  | _, _, .continueStmt _ => by rw [stmt, stmt]; exact repeats_pure _
  | _, _, .emptyStmt _ => by rw [stmt, stmt]; exact repeats_pure _
  | _, _, .returnStmt _ value => by rw [stmt, stmt]; exact repeats_returned value
  | _, _, .ifThen _ test ⟨_, body⟩ => by
      rw [stmt, stmt]
      apply (repeats_expr fun types => blind_condition types test).bind
      intro text
      apply (repeats_block fun inner inner' => repeats_stmts inner inner' body).bind
      intro block
      exact repeats_pure _
  | _, _, .ifElse _ test ⟨_, body⟩ ⟨_, otherwise⟩ => by
      rw [stmt, stmt]
      apply (repeats_expr fun types => blind_condition types test).bind
      intro text
      apply (repeats_block fun inner inner' => repeats_stmts inner inner' body).bind
      intro block
      apply (repeats_block fun inner inner' => repeats_stmts inner inner' otherwise).bind
      intro block
      exact repeats_pure _
  | scope, scope', .switchOn node discriminant list => by
      rw [stmt, stmt]
      apply (repeats_selection node.id discriminant).bind
      intro select
      apply (repeats_clauses scope scope' select 0 list).bind
      intro clauses
      exact repeats_pure _
  | _, _, .whileLoop _ test ⟨_, body⟩ => by
      rw [stmt, stmt]
      apply (repeats_expr fun types => blind_condition types test).bind
      intro text
      apply (repeats_block fun inner inner' => repeats_stmts inner inner' body).bind
      intro block
      exact repeats_pure _
  | _, _, .doLoop _ ⟨_, body⟩ test => by
      rw [stmt, stmt]
      apply (repeats_block fun inner inner' => repeats_stmts inner inner' body).bind
      intro block
      apply (repeats_expr fun types => blind_condition types test).bind
      intro text
      exact repeats_pure _
  | _, _, .forLoop _ init test update ⟨_, body⟩ => by
      rw [stmt, stmt]
      apply (repeats_loopStart init).bind
      intro start
      apply (Repeats.mapM (fun e => repeats_expr fun types => blind_condition types e) test).bind
      intro text
      apply (Repeats.mapM (fun e => repeats_expr fun types => blind_exprText types e) update).bind
      intro text
      apply (repeats_block fun inner inner' => repeats_stmts inner inner' body).bind
      intro block
      exact repeats_pure _
  | _, _, .forOf node left right body => by
      rw [stmt, stmt]
      apply (repeats_typeOfNode _ _).bind
      intro type
      cases type with
      | array element capacity dynamic =>
          apply (repeats_loopHead node.id left right).bind
          intro head
          have loop : ∀ inner inner',
              Repeats inner inner' (do return [← stmt inner body])
                (do return [← stmt inner' body]) := by
            intro inner inner'
            exact (repeats_stmt inner inner' body).bind fun _ => repeats_pure _
          apply (repeats_hoisted loop).bind
          intro body
          cases dynamic <;> exact repeats_pure _
      | _ => exact repeats_throw _
  | _, _, .forIn node left right ⟨_, body⟩ => by
      rw [stmt, stmt]
      apply (repeats_typeOfNode _ _).bind
      intro type
      split
      · apply (repeats_loopHead node.id left right).bind
        intro head
        apply (repeats_hoisted fun inner inner' => repeats_stmts inner inner' body).bind
        intro body
        exact repeats_pure _
      · exact repeats_throw _
  | _, _, .expression _ e => by
      rw [stmt, stmt]
      exact (repeats_expressionStatement e).bind fun _ => repeats_pure _
  | _, _, .block _ body => by
      rw [stmt, stmt]
      apply (repeats_block fun inner inner' => repeats_stmts inner inner' body).bind
      intro block
      exact repeats_pure _
  | _, _, .importFrom _ path => by
      rw [stmt, stmt]
      exact (repeats_importHeader path).bind fun _ => repeats_pure _
  | _, _, .declaration _ declarators => by
      rw [stmt, stmt]
      exact (repeats_declarations declarators).bind fun _ => repeats_pure _

theorem repeats_stmts : ∀ (scope scope' : ScopeId) (body : List Stmt),
    Repeats scope scope' (stmts scope body) (stmts scope' body)
  | _, _, [] => by rw [stmts, stmts]; exact repeats_pure _
  | scope, scope', s :: rest => by
      rw [stmts, stmts]
      apply (repeats_stmt scope scope' s).bind
      intro statement
      apply (repeats_stmts scope scope' rest).bind
      intro statements
      exact repeats_pure _

theorem repeats_clauses : ∀ (scope scope' : ScopeId) (select : Selection) (index : Nat)
    (list : List (Clause Stmt)),
    Repeats scope scope' (clauses scope select index list) (clauses scope' select index list)
  | _, _, _, _, [] => by rw [clauses, clauses]; exact repeats_pure _
  | scope, scope', select, index, ⟨test, body⟩ :: rest => by
      rw [clauses, clauses]
      apply (Repeats.mapM (fun e => repeats_label select index e) test).bind
      intro label
      apply (repeats_hoisted fun inner inner' => repeats_stmts inner inner' body).bind
      intro body
      apply (repeats_clauses scope scope' select (index + 1) rest).bind
      intro clauses
      exact repeats_pure _

end

end Emit

/-! ## Whatever comes in between -/

namespace Workspace

/-- What may happen to a workspace: an operation on the scopes, a name for a node, other headers, a
name that is reserved, and a statement that is emitted in some setting, also if it fails. -/
inductive Operation : Workspace → Workspace → Prop
  | step {w w' : Workspace} : Step w w' → Operation w w'
  | reserve (w : Workspace) (name : String) :
      Operation w { w with names := w.names.reserve name }
  | statement (σ : Setting) (scope : ScopeId) (s : Stmt) (w : Workspace) :
      Operation w (Emit.stmt scope s σ w).2

/-- Finitely many operations on the workspace. -/
abbrev Leads : Workspace → Workspace → Prop :=
  Relation.ReflTransGen Operation

variable {w w' : Workspace}

theorem Leads.scopes (leads : w.Leads w') : w.scopes.Evolves w'.scopes := by
  induction leads with
  | refl => exact .refl
  | tail _ operation ih =>
    cases operation with
    | step step => exact ih.trans (Evolves.scopes (.single step))
    | reserve => exact ih
    | statement σ scope s => exact ih.trans (Emit.evolving_stmt scope s σ _).scopes

/-- Whatever happens, a node that was given a name keeps it. -/
theorem Leads.given (leads : w.Leads w') : w.names.Given w'.names := by
  induction leads with
  | refl => exact .refl _
  | tail _ operation ih =>
    cases operation with
    | step step => exact ih.trans (Evolves.given (.single step))
    | reserve => exact ih.trans ⟨id, id⟩
    | statement σ scope s => exact ih.trans (Emit.evolving_stmt scope s σ _).given

end Workspace

namespace Emit

open Workspace (Leads)

/-- The text of a statement in a scope. -/
def stmtText (scope : ScopeId) (s : Stmt) : EmitM String := do
  render (← stmt scope s).toValue

theorem repeats_render {scope scope' : ScopeId} (value : Value) :
    Repeats scope scope' (render value) (render value) := by
  unfold render
  split
  · exact repeats_pure _
  · exact repeats_throw _

/-- The locals around a place are the same as before if those of its scope and of the scopes around
it are. -/
theorem meets_of_chain {scope : ScopeId} {before later : Workspace} {ids : List ScopeId}
    (wf : before.scopes.WellFormed) (evolves : before.scopes.Evolves later.scopes)
    (chain : before.scopes.chain? scope = some ids)
    (same : ∀ id ∈ ids, later.scopes.locals? id = before.scopes.locals? id) :
    Meets scope scope before later := by
  have isScope : scope < before.scopes.size := by
    obtain ⟨func, found, -⟩ := Option.bind_eq_some_iff.1 chain
    obtain ⟨_, found, -⟩ := Option.map_eq_some_iff.1 found
    exact lt_size_of_find? found
  obtain ⟨ids', chain', mem, -⟩ := wf.chain?_eq_some isScope
  cases chain.symm.trans chain'
  obtain ⟨layers, shown⟩ := exists_layered wf isScope
  refine ⟨layers, shown, evolves.wellFormed wf, shown.layers.kept_of_encloses evolves ?_⟩
  intro outer encloses
  exact same outer ((mem outer).2 encloses)

/-- **A statement becomes the same text again.** In a workspace that operations in any order have
led to, a statement is emitted in a scope and has a text. Then more operations follow: scopes are
opened, locals declared or taken out, names taken or reserved, headers registered, other statements
emitted. If the scope and those around it then have the locals that they had before the statement
was emitted, it is emitted in that scope again, and has the same text. -/
theorem stmtText_again {σ : Setting} {before after later : Workspace} {scope : ScopeId} {s : Stmt}
    {text : String} {ids : List ScopeId} (reached : Leads {} before)
    (first : stmtText scope s σ before = (.ok text, after)) (more : after.Leads later)
    (chain : before.scopes.chain? scope = some ids)
    (same : ∀ id ∈ ids, later.scopes.locals? id = before.scopes.locals? id) :
    ∃ last, stmtText scope s σ later = (.ok text, last) := by
  have again : Repeats scope scope (stmtText scope s) (stmtText scope s) :=
    (repeats_stmt scope scope s).bind fun c => repeats_render c.toValue
  have wf : before.scopes.WellFormed := reached.scopes.wellFormed wellFormed_empty
  have evolves := (again.evolving.evolves first).scopes.trans more.scopes
  obtain ⟨last, run, -⟩ := again.again (meets_of_chain wf evolves chain same) first more.given
  exact ⟨last, run⟩

/-- A setting in which a loop runs through rows of numbers. -/
def rowsOfNumbers : Setting where
  types
    | 1 => some (.dynamicArray (.dynamicArray .number))
    | 2 => some (.dynamicArray .number)
    | _ => none
  includeMarker := "ts2c"

/-- A loop that returns from its first round. -/
def returningLoop : Stmt :=
  .forOf ⟨0, ⟨0, 30⟩⟩ (.declare ⟨⟨2, ⟨11, 14⟩⟩, "row", none⟩) (.ident ⟨1, ⟨18, 22⟩⟩ "rows")
    (.returnStmt ⟨3, ⟨24, 30⟩⟩ none)

/-- The workspace at the start of a function. -/
def functionStart : Workspace :=
  { scopes := ⟨[⟨none, 0, []⟩]⟩ }

/-- The workspace after the loop, when its locals were taken out again and names were reserved. -/
def laterWorkspace : Workspace :=
  let after := (stmtText 0 returningLoop rowsOfNumbers functionStart).2
  { after with
    scopes := after.scopes.setLocals 0 []
    names := (after.names.reserve "j").reserve "k" }

/-- The loop keeps its counter and the releases of its `return`. -/
theorem stmtText_again_returningLoop :
    ∃ text after last, Leads {} functionStart ∧
      stmtText 0 returningLoop rowsOfNumbers functionStart = (.ok text, after) ∧
      after.Leads laterWorkspace ∧ functionStart.scopes.chain? 0 = some [0] ∧
      (∀ id ∈ [0], laterWorkspace.scopes.locals? id = functionStart.scopes.locals? id) ∧
      stmtText 0 returningLoop rowsOfNumbers laterWorkspace = (.ok text, last) := by
  have reached : Leads {} functionStart := .single (.step (.scopes (.function {})))
  have isOk : (stmtText 0 returningLoop rowsOfNumbers functionStart).1.toOption.isSome = true := by
    decide +kernel
  obtain ⟨text, first⟩ : ∃ text, stmtText 0 returningLoop rowsOfNumbers functionStart =
      (.ok text, (stmtText 0 returningLoop rowsOfNumbers functionStart).2) := by
    generalize stmtText 0 returningLoop rowsOfNumbers functionStart = result at isOk
    obtain ⟨_ | text, after⟩ := result
    · cases isOk
    · exact ⟨text, rfl⟩
  have drained : (stmtText 0 returningLoop rowsOfNumbers functionStart).2.scopes.drain? 0 =
      some ([⟨"i", .number⟩, ⟨"row", .dynamicArray .number⟩],
        (stmtText 0 returningLoop rowsOfNumbers functionStart).2.scopes.setLocals 0 []) := by
    decide +kernel
  have more : Leads (stmtText 0 returningLoop rowsOfNumbers functionStart).2 laterWorkspace :=
    ((Relation.ReflTransGen.single (.step (.scopes (.drain drained)))).tail
      (.reserve _ "j")).tail (.reserve _ "k")
  have chain : functionStart.scopes.chain? 0 = some [0] := by decide +kernel
  have same : ∀ id ∈ [0], laterWorkspace.scopes.locals? id = functionStart.scopes.locals? id := by
    decide +kernel
  obtain ⟨last, again⟩ := stmtText_again reached first more chain same
  exact ⟨text, _, last, reached, first, more, chain, same, again⟩

end Emit

end ScriptToC
