import ScriptToC.Proofs.Emission.Evolution
import ScriptToC.Proofs.Hoisting.Layout

/-!
# Where emission changes the scopes

A statement that is emitted in a scope works in this scope and in the scopes that it opens. It opens
scopes inside these, declares locals in these, and takes locals out of those only that it opened
(`StepWithin`); a failure ends this row of operations early and adds nothing to it
(`confinedTo_stmt`). So every scope that was there keeps its place in the tree, every other one
keeps its locals, the scope of the statement only gets more of them, and what is new lies inside it
(`stmt_confined`).
-/

set_option autoImplicit false

namespace ScriptToC

open Ir

/-! ## Operations in one part of the tree -/

namespace ScopeTree

/-- The scope `scope` and the scopes that are numbered from `first` on. -/
def Inside (scope first id : ScopeId) : Prop :=
  id = scope ∨ first ≤ id

theorem Inside.outward {scope first inner id : ScopeId} (isNew : first ≤ inner)
    (inside : Inside inner first id) : Inside scope first id := by
  rcases inside with rfl | later
  · exact .inr isNew
  · exact .inr later

/-- One operation in `scope` and the scopes numbered from `first` on. Locals are taken out of the
latter only. -/
inductive StepWithin (scope first : ScopeId) : ScopeTree → ScopeTree → Prop
  | child {tree later : ScopeTree} {parent id : ScopeId} (inside : Inside scope first parent)
      (made : tree.newChild? parent = some (id, later)) : StepWithin scope first tree later
  | add {tree later : ScopeTree} {id : ScopeId} {x : Variable} {new : Bool}
      (inside : Inside scope first id) (added : tree.add? id x = some (new, later)) :
      StepWithin scope first tree later
  | drain {tree later : ScopeTree} {id : ScopeId} {moved : List Variable} (isNew : first ≤ id)
      (drained : tree.drain? id = some (moved, later)) : StepWithin scope first tree later

/-- Finitely many operations in `scope` and the scopes numbered from `first` on. -/
abbrev EvolvesWithin (scope first : ScopeId) : ScopeTree → ScopeTree → Prop :=
  Relation.ReflTransGen (StepWithin scope first)

variable {tree before after later : ScopeTree} {scope first : ScopeId}

theorem StepWithin.step (within : StepWithin scope first tree later) : Step tree later := by
  cases within with
  | child _ made => exact .child made
  | add _ added => exact .add added
  | drain _ drained => exact .drain drained

/-- What is inside a new scope is inside the part of the tree where this scope is new. -/
theorem StepWithin.outward {inner : ScopeId} (isNew : first ≤ inner)
    (within : StepWithin inner first tree later) : StepWithin scope first tree later := by
  cases within with
  | child inside made => exact .child (inside.outward isNew) made
  | add inside added => exact .add (inside.outward isNew) added
  | drain isNew' drained => exact .drain isNew' drained

theorem StepWithin.size_le (within : StepWithin scope first tree later) :
    tree.size ≤ later.size := by
  cases within with
  | child _ made =>
    obtain ⟨_, _, _, rfl⟩ := newChild?_eq_some.1 made
    rw [size_push]
    exact Nat.le_succ _
  | add _ added =>
    obtain ⟨_, _, _, rfl⟩ := add?_eq_some.1 added
    exact Nat.le_of_eq (size_setLocals _ _ _).symm
  | drain _ drained =>
    obtain ⟨_, rfl⟩ := drain?_eq_some.1 drained
    exact Nat.le_of_eq (size_setLocals _ _ _).symm

theorem EvolvesWithin.size_le (within : EvolvesWithin scope first tree later) :
    tree.size ≤ later.size := by
  induction within with
  | refl => exact Nat.le_refl _
  | tail _ step ih => exact Nat.le_trans ih step.size_le

theorem evolvesWithin_of_extend? {id : ScopeId} (inside : Inside scope first id)
    {xs : List Variable} (extended : tree.extend? id xs = some later) :
    EvolvesWithin scope first tree later := by
  induction xs generalizing tree with
  | nil =>
    cases extended
    exact .refl
  | cons x rest ih =>
    simp only [extend?, Option.bind_eq_bind, Option.bind_eq_some_iff] at extended
    obtain ⟨⟨new, middle⟩, added, extended⟩ := extended
    exact .head (.add inside added) (ih extended)

/-! ## What such operations keep -/

/-- A tree has changed in `scope` only, and by new scopes inside it. -/
structure Confined (scope : ScopeId) (before after : ScopeTree) : Prop where
  grows : before.size ≤ after.size
  others : ∀ id < before.size, id ≠ scope → after.locals? id = before.locals? id
  own : ∀ locals, before.locals? scope = some locals →
    ∃ more, after.locals? scope = some (locals ++ more)
  parents : ∀ id < before.size, after.parent? id = before.parent? id
  funcs : ∀ id < before.size, after.func? id = before.func? id
  descends : ∀ id, before.size ≤ id → id < after.size → after.Encloses scope id
  newFuncs : ∀ id, before.size ≤ id → id < after.size → after.func? id = before.func? scope

theorem Confined.refl (scope : ScopeId) (tree : ScopeTree) : Confined scope tree tree where
  grows := Nat.le_refl _
  others := fun _ _ _ => rfl
  own := fun locals found => ⟨[], by rw [List.append_nil, found]⟩
  parents := fun _ _ => rfl
  funcs := fun _ _ => rfl
  descends := fun _ isNew isScope => absurd isScope (Nat.not_lt.2 isNew)
  newFuncs := fun _ isNew isScope => absurd isScope (Nat.not_lt.2 isNew)

theorem declare_eq_append (locals : List Variable) (x : Variable) :
    ∃ more, declare locals x = locals ++ more := by
  rw [declare]
  split
  · exact ⟨[], (List.append_nil _).symm⟩
  · exact ⟨[x], rfl⟩

theorem parent?_setLocals (tree : ScopeTree) (id other : ScopeId) (locals : List Variable) :
    (tree.setLocals id locals).parent? other = tree.parent? other := by
  rw [parent?, find?_setLocals, parent?]
  split
  · rw [Option.map_map]
    rfl
  · rfl

theorem func?_setLocals (tree : ScopeTree) (id other : ScopeId) (locals : List Variable) :
    (tree.setLocals id locals).func? other = tree.func? other := by
  rw [func?, find?_setLocals, func?]
  split
  · rw [Option.map_map]
    rfl
  · rfl

/-- Other locals in a scope leave the tree confined if the scope is a new one, or if it is `scope`
and gets more locals. -/
theorem Confined.setLocals (confined : Confined scope before tree) {id : ScopeId}
    {old locals : List Variable} (found : tree.locals? id = some old)
    (allowed : before.size ≤ id ∨ (id = scope ∧ ∃ more, locals = old ++ more))
    (step : Step tree (tree.setLocals id locals)) (isScope : scope < before.size) :
    Confined scope before (tree.setLocals id locals) := by
  have evolves : Evolves tree (tree.setLocals id locals) := .single step
  constructor
  · rw [size_setLocals]
    exact confined.grows
  · intro other isOld different
    have distinct : other ≠ id := by
      rintro rfl
      rcases allowed with isNew | ⟨same, -⟩
      · exact Nat.not_lt.2 isNew isOld
      · exact different same
    rw [locals?_setLocals, if_neg distinct]
    exact confined.others other isOld different
  · intro declared isDeclared
    obtain ⟨more, hasMore⟩ := confined.own declared isDeclared
    rcases allowed with isNew | ⟨rfl, added, rfl⟩
    · rw [locals?_setLocals, if_neg (Nat.ne_of_lt (Nat.lt_of_lt_of_le isScope isNew))]
      exact ⟨more, hasMore⟩
    · rw [found] at hasMore
      cases hasMore
      rw [locals?_setLocals, if_pos rfl, found, Option.map_some, List.append_assoc]
      exact ⟨more ++ added, rfl⟩
  · intro other isOld
    rw [parent?_setLocals]
    exact confined.parents other isOld
  · intro other isOld
    rw [func?_setLocals]
    exact confined.funcs other isOld
  · intro other isNew isThere
    rw [size_setLocals] at isThere
    exact evolves.encloses (confined.descends other isNew isThere)
  · intro other isNew isThere
    rw [size_setLocals] at isThere
    rw [func?_setLocals]
    exact confined.newFuncs other isNew isThere

/-- A new scope leaves the tree confined if its parent is `scope` or a new one. -/
theorem Confined.push (confined : Confined scope before tree) {parent : ScopeId} {outer : Scope}
    (inside : Inside scope before.size parent) (found : tree.find? parent = some outer)
    (step : Step tree ⟨tree.scopes ++ [⟨some parent, outer.func, []⟩]⟩)
    (isScope : scope < before.size) :
    Confined scope before ⟨tree.scopes ++ [⟨some parent, outer.func, []⟩]⟩ := by
  have isParent := lt_size_of_find? found
  have func : tree.func? parent = some outer.func := func?_eq_some.2 ⟨outer, found, rfl⟩
  -- The parent lies in the part of the tree, so it is enclosed by `scope` and has its function.
  have around : tree.Encloses scope parent ∧ tree.func? parent = before.func? scope := by
    rcases inside with rfl | isNew
    · exact ⟨.self isParent, confined.funcs parent isScope⟩
    · exact ⟨confined.descends parent isNew isParent, confined.newFuncs parent isNew isParent⟩
  have kept : ∀ {id : ScopeId}, id < tree.size →
      (ScopeTree.mk (tree.scopes ++ [⟨some parent, outer.func, []⟩])).find? id = tree.find? id := by
    intro id isThere
    rw [find?_push, if_neg (Nat.ne_of_lt isThere)]
  have added : (ScopeTree.mk (tree.scopes ++ [⟨some parent, outer.func, []⟩])).find? tree.size =
      some ⟨some parent, outer.func, []⟩ := by
    rw [find?_push, if_pos rfl]
  have evolves : Evolves tree ⟨tree.scopes ++ [⟨some parent, outer.func, []⟩]⟩ := .single step
  have isThere : ∀ {id : ScopeId}, id < before.size → id < tree.size :=
    fun isOld => Nat.lt_of_lt_of_le isOld confined.grows
  constructor
  · rw [size_push]
    exact Nat.le_succ_of_le confined.grows
  · intro id isOld different
    rw [locals?, kept (isThere isOld), ← locals?]
    exact confined.others id isOld different
  · intro locals isDeclared
    rw [locals?, kept (isThere isScope), ← locals?]
    exact confined.own locals isDeclared
  · intro id isOld
    rw [parent?, kept (isThere isOld), ← parent?]
    exact confined.parents id isOld
  · intro id isOld
    rw [func?, kept (isThere isOld), ← func?]
    exact confined.funcs id isOld
  · intro id isNew small
    rw [size_push] at small
    rcases Nat.eq_or_lt_of_le (Nat.le_of_lt_succ small) with rfl | earlier
    · exact .parent (parent?_eq_some.2 ⟨_, added, rfl⟩) (evolves.encloses around.1)
    · exact evolves.encloses (confined.descends id isNew earlier)
  · intro id isNew small
    rw [size_push] at small
    rcases Nat.eq_or_lt_of_le (Nat.le_of_lt_succ small) with rfl | earlier
    · rw [func?, added, ← around.2, func]
      rfl
    · rw [func?, kept earlier, ← func?]
      exact confined.newFuncs id isNew earlier

/-- One more operation in `scope` and the new scopes leaves the tree confined. -/
theorem Confined.next (confined : Confined scope before tree) (isScope : scope < before.size)
    (within : StepWithin scope before.size tree later) : Confined scope before later := by
  have step := within.step
  cases within with
  | child inside made =>
    obtain ⟨outer, found, -, rfl⟩ := newChild?_eq_some.1 made
    exact confined.push inside found step isScope
  | add inside added =>
    obtain ⟨locals, found, -, rfl⟩ := add?_eq_some.1 added
    apply confined.setLocals found _ step isScope
    rcases inside with same | isNew
    · exact .inr ⟨same, declare_eq_append locals _⟩
    · exact .inl isNew
  | drain isNew drained =>
    obtain ⟨found, rfl⟩ := drain?_eq_some.1 drained
    exact confined.setLocals found (.inl isNew) step isScope

theorem EvolvesWithin.confined (isScope : scope < before.size)
    (within : EvolvesWithin scope before.size before after) : Confined scope before after := by
  induction within with
  | refl => exact .refl scope before
  | tail _ step ih => exact ih.next isScope step

end ScopeTree

/-! ## Steps of emission -/

namespace Emit

open ScopeTree (EvolvesWithin Inside)

/-- A step that, from wherever `first` is no scope yet, changes the scopes by operations in `scope`
and in the scopes numbered from `first` on, also if it fails. -/
def ConfinedTo {α : Type} (scope first : ScopeId) (m : EmitM α) : Prop :=
  ∀ (σ : Setting) (w : Workspace), first ≤ w.scopes.size →
    EvolvesWithin scope first w.scopes (m σ w).2.scopes

variable {α β : Type} {scope first : ScopeId}

/-- A step that leaves the scopes alone. -/
theorem ConfinedTo.of_eq {m : EmitM α} (same : ∀ σ w, (m σ w).2.scopes = w.scopes) :
    ConfinedTo scope first m :=
  fun σ w _ => (same σ w).symm ▸ .refl

theorem ConfinedTo.bind {m : EmitM α} {next : α → EmitM β} (start : ConfinedTo scope first m)
    (others : ∀ a, ConfinedTo scope first (next a)) : ConfinedTo scope first (m >>= next) := by
  intro σ w isNew
  have within := start σ w isNew
  rw [run_bind]
  split
  next a middle eq =>
    rw [eq] at within
    exact within.trans (others a σ middle (Nat.le_trans isNew within.size_le))
  next cause middle eq =>
    rw [eq] at within
    exact within

/-- What is done in a new scope is done where this scope is new. -/
theorem ConfinedTo.outward {m : EmitM α} {inner : ScopeId} (isNew : first ≤ inner)
    (within : ConfinedTo inner first m) : ConfinedTo scope first m :=
  fun σ w isNew' => (within σ w isNew').lift id fun _ _ step => step.outward isNew

theorem confinedTo_pure (a : α) : ConfinedTo scope first (pure a : EmitM α) :=
  .of_eq fun _ _ => rfl

theorem confinedTo_throw (cause : EmitError) : ConfinedTo scope first (throw cause : EmitM α) :=
  .of_eq fun _ _ => rfl

theorem confinedTo_expr (action : Types → ExprM α) : ConfinedTo scope first (expr action) :=
  .of_eq fun _ _ => rfl

theorem confinedTo_read : ConfinedTo scope first (read : EmitM Setting) :=
  .of_eq fun _ _ => rfl

theorem confinedTo_counter (id : NodeId) : ConfinedTo scope first (counter id) :=
  .of_eq fun _ _ => rfl

theorem confinedTo_temporary (id : NodeId) (hint : String) :
    ConfinedTo scope first (temporary id hint) :=
  .of_eq fun _ _ => rfl

theorem ConfinedTo.mapM {step : α → EmitM β} (each : ∀ a, ConfinedTo scope first (step a))
    (part : Option α) : ConfinedTo scope first (part.mapM step) := by
  cases part with
  | none => exact confinedTo_pure none
  | some a =>
    rw [Option.mapM_some, map_eq_pure_bind]
    exact (each a).bind fun b => confinedTo_pure (some b)

theorem confinedTo_askScopes (id : ScopeId) (ask : ScopeTree → Option α) :
    ConfinedTo scope first (askScopes id ask) := by
  intro σ w _
  rw [askScopes, get_bind]
  cases ask w.scopes <;> exact .refl

theorem confinedTo_changeScopes {id : ScopeId} {change : ScopeTree → Option (α × ScopeTree)}
    (operates : ∀ tree a later, change tree = some (a, later) →
      EvolvesWithin scope first tree later) : ConfinedTo scope first (changeScopes id change) := by
  intro σ w _
  rw [changeScopes, get_bind]
  rcases eq : change w.scopes with _ | ⟨a, later⟩
  · exact .refl
  · exact operates _ _ _ eq

theorem confinedTo_declare (x : Variable) : ConfinedTo scope first (declare scope x) := by
  apply (confinedTo_changeScopes fun _ _ _ added => .single (.add (.inl rfl) added)).bind
  intro _
  exact confinedTo_pure ()

/-- Locals move from a new scope to the scope itself. -/
theorem confinedTo_hoist {inner : ScopeId} (isNew : first ≤ inner) :
    ConfinedTo scope first (hoist inner scope) := by
  apply (confinedTo_changeScopes fun _ _ _ drained => .single (.drain isNew drained)).bind
  intro moved
  apply confinedTo_changeScopes
  intro tree _ later extended
  obtain ⟨_, extended, same⟩ := Option.map_eq_some_iff.1 extended
  cases same
  exact ScopeTree.evolvesWithin_of_extend? (.inl rfl) extended

/-- A step that opens a scope goes on with the number of a new scope. -/
theorem confinedTo_newChild_bind {next : ScopeId → EmitM α}
    (others : ∀ inner, first ≤ inner → ConfinedTo scope first (next inner)) :
    ConfinedTo scope first (newChild scope >>= next) := by
  intro σ w isNew
  rw [newChild, changeScopes, bind_assoc, get_bind]
  rcases made : w.scopes.newChild? scope with _ | ⟨inner, later⟩
  · exact .refl
  · have step : EvolvesWithin scope first w.scopes later := .single (.child (.inl rfl) made)
    obtain ⟨_, _, rfl, -⟩ := ScopeTree.newChild?_eq_some.1 made
    exact step.trans (others w.scopes.size isNew σ { w with scopes := later }
      (Nat.le_trans isNew step.size_le))

theorem confinedTo_typeOfNode (node : Node) (what : Subject) :
    ConfinedTo scope first (typeOfNode node what) := by
  apply confinedTo_read.bind
  intro setting
  split
  · exact confinedTo_pure _
  · exact confinedTo_throw _

/-! ## Parts of statements -/

theorem confinedTo_block {body : ScopeId → EmitM (List CStmt)}
    (each : ∀ inner, ConfinedTo inner first (body inner)) :
    ConfinedTo scope first (block scope body) := by
  apply confinedTo_newChild_bind
  intro inner isNew
  apply ((each inner).outward isNew).bind
  intro _
  apply (confinedTo_askScopes inner _).bind
  intro locals
  exact confinedTo_pure _

theorem confinedTo_hoisted {body : ScopeId → EmitM (List CStmt)}
    (each : ∀ inner, ConfinedTo inner first (body inner)) :
    ConfinedTo scope first (hoisted scope body) := by
  apply confinedTo_newChild_bind
  intro inner isNew
  apply ((each inner).outward isNew).bind
  intro _
  apply (confinedTo_hoist isNew).bind
  intro _
  exact confinedTo_pure _

theorem confinedTo_returned (value : Option Expr) :
    ConfinedTo scope first (returned scope value) := by
  apply (ConfinedTo.mapM (fun _ => confinedTo_expr _) value).bind
  intro text
  apply (confinedTo_askScopes scope _).bind
  intro plan
  exact confinedTo_pure _

theorem confinedTo_declarations (declarators : List Declarator) :
    ConfinedTo scope first (declarations scope declarators) := by
  induction declarators with
  | nil => exact confinedTo_pure []
  | cons declarator rest ih =>
    apply (confinedTo_typeOfNode _ _).bind
    intro type
    apply (confinedTo_declare _).bind
    intro _
    apply (ConfinedTo.mapM (fun _ => confinedTo_expr _) declarator.init).bind
    intro text
    apply ih.bind
    intro _
    exact confinedTo_pure _

theorem confinedTo_binding (left : ForBinding) : ConfinedTo scope first (binding scope left) := by
  cases left with
  | declare declarator =>
    apply (confinedTo_typeOfNode _ _).bind
    intro type
    apply (confinedTo_declare _).bind
    intro _
    exact confinedTo_pure _
  | target e => exact confinedTo_expr _

theorem confinedTo_loopHead (id : NodeId) (left : ForBinding) (right : Expr) :
    ConfinedTo scope first (loopHead scope id left right) := by
  apply (confinedTo_counter id).bind
  intro counter
  apply (confinedTo_declare _).bind
  intro _
  apply (confinedTo_expr _).bind
  intro text
  apply (confinedTo_binding left).bind
  intro target
  exact confinedTo_pure _

theorem confinedTo_expressionStatement (e : Expr) :
    ConfinedTo scope first (expressionStatement e) := by
  unfold expressionStatement
  split
  · apply confinedTo_read.bind
    intro setting
    apply (confinedTo_expr _).bind
    intro text
    exact confinedTo_expr _
  · exact (confinedTo_expr _).bind fun _ => confinedTo_pure _

theorem confinedTo_importHeader (path : String) : ConfinedTo scope first (importHeader path) := by
  apply confinedTo_read.bind
  intro setting
  split
  · exact confinedTo_expr _
  · exact confinedTo_pure _

theorem confinedTo_selection (id : NodeId) (discriminant : Expr) :
    ConfinedTo scope first (selection scope id discriminant) := by
  apply confinedTo_read.bind
  intro setting
  apply (confinedTo_expr _).bind
  intro text
  split
  · exact confinedTo_pure _
  · apply (confinedTo_temporary id _).bind
    intro name
    apply (confinedTo_declare _).bind
    intro _
    apply (confinedTo_expr _).bind
    intro text
    exact confinedTo_pure _

theorem confinedTo_label (select : Selection) (index : Nat) (test : Expr) :
    ConfinedTo scope first (label select index test) := by
  apply (confinedTo_expr _).bind
  intro text
  cases select <;> exact confinedTo_pure _

theorem confinedTo_loopStart (init : Option ForInit) :
    ConfinedTo scope first (loopStart scope init) := by
  rcases init with _ | (declarators | e)
  · exact confinedTo_pure _
  · exact (confinedTo_declarations declarators).bind fun _ => confinedTo_pure _
  · exact (confinedTo_expr _).bind fun _ => confinedTo_pure _

/-! ## Statements -/

mutual

/-- A statement changes its scope and the scopes that it opens, also if it fails. -/
theorem confinedTo_stmt : ∀ (scope first : ScopeId) (s : Stmt),
    ConfinedTo scope first (stmt scope s)
  | _, _, .breakStmt _ => by rw [stmt]; exact confinedTo_pure _
  | _, _, .continueStmt _ => by rw [stmt]; exact confinedTo_pure _
  | _, _, .emptyStmt _ => by rw [stmt]; exact confinedTo_pure _
  | _, _, .returnStmt _ value => by rw [stmt]; exact confinedTo_returned value
  | _, first, .ifThen _ _ ⟨_, body⟩ => by
      rw [stmt]
      apply (confinedTo_expr _).bind
      intro text
      apply (confinedTo_block fun inner => confinedTo_stmts inner first body).bind
      intro block
      exact confinedTo_pure _
  | _, first, .ifElse _ _ ⟨_, body⟩ ⟨_, otherwise⟩ => by
      rw [stmt]
      apply (confinedTo_expr _).bind
      intro text
      apply (confinedTo_block fun inner => confinedTo_stmts inner first body).bind
      intro block
      apply (confinedTo_block fun inner => confinedTo_stmts inner first otherwise).bind
      intro block
      exact confinedTo_pure _
  | scope, first, .switchOn node discriminant list => by
      rw [stmt]
      apply (confinedTo_selection node.id discriminant).bind
      intro select
      apply (confinedTo_clauses scope first select 0 list).bind
      intro clauses
      exact confinedTo_pure _
  | _, first, .whileLoop _ _ ⟨_, body⟩ => by
      rw [stmt]
      apply (confinedTo_expr _).bind
      intro text
      apply (confinedTo_block fun inner => confinedTo_stmts inner first body).bind
      intro block
      exact confinedTo_pure _
  | _, first, .doLoop _ ⟨_, body⟩ _ => by
      rw [stmt]
      apply (confinedTo_block fun inner => confinedTo_stmts inner first body).bind
      intro block
      apply (confinedTo_expr _).bind
      intro text
      exact confinedTo_pure _
  | _, first, .forLoop _ init test update ⟨_, body⟩ => by
      rw [stmt]
      apply (confinedTo_loopStart init).bind
      intro start
      apply (ConfinedTo.mapM (fun _ => confinedTo_expr _) test).bind
      intro text
      apply (ConfinedTo.mapM (fun _ => confinedTo_expr _) update).bind
      intro text
      apply (confinedTo_block fun inner => confinedTo_stmts inner first body).bind
      intro block
      exact confinedTo_pure _
  | _, first, .forOf node left right body => by
      rw [stmt]
      apply (confinedTo_typeOfNode _ _).bind
      intro type
      cases type with
      | array element capacity dynamic =>
          apply (confinedTo_loopHead node.id left right).bind
          intro head
          have loop : ∀ inner, ConfinedTo inner first (do return [← stmt inner body]) := by
            intro inner
            exact (confinedTo_stmt inner first body).bind fun _ => confinedTo_pure _
          apply (confinedTo_hoisted loop).bind
          intro body
          cases dynamic <;> exact confinedTo_pure _
      | _ => exact confinedTo_throw _
  | _, first, .forIn node left right ⟨_, body⟩ => by
      rw [stmt]
      apply (confinedTo_typeOfNode _ _).bind
      intro type
      split
      · apply (confinedTo_loopHead node.id left right).bind
        intro head
        apply (confinedTo_hoisted fun inner => confinedTo_stmts inner first body).bind
        intro body
        exact confinedTo_pure _
      · exact confinedTo_throw _
  | _, _, .expression _ e => by
      rw [stmt]
      exact (confinedTo_expressionStatement e).bind fun _ => confinedTo_pure _
  | _, first, .block _ body => by
      rw [stmt]
      apply (confinedTo_block fun inner => confinedTo_stmts inner first body).bind
      intro block
      exact confinedTo_pure _
  | _, _, .importFrom _ path => by
      rw [stmt]
      exact (confinedTo_importHeader path).bind fun _ => confinedTo_pure _
  | _, _, .declaration _ declarators => by
      rw [stmt]
      exact (confinedTo_declarations declarators).bind fun _ => confinedTo_pure _

theorem confinedTo_stmts : ∀ (scope first : ScopeId) (body : List Stmt),
    ConfinedTo scope first (stmts scope body)
  | _, _, [] => by rw [stmts]; exact confinedTo_pure _
  | scope, first, s :: rest => by
      rw [stmts]
      apply (confinedTo_stmt scope first s).bind
      intro statement
      apply (confinedTo_stmts scope first rest).bind
      intro statements
      exact confinedTo_pure _

theorem confinedTo_clauses : ∀ (scope first : ScopeId) (select : Selection) (index : Nat)
    (list : List (Clause Stmt)), ConfinedTo scope first (clauses scope select index list)
  | _, _, _, _, [] => by rw [clauses]; exact confinedTo_pure _
  | scope, first, select, index, ⟨test, body⟩ :: rest => by
      rw [clauses]
      apply (ConfinedTo.mapM (fun _ => confinedTo_label _ _ _) test).bind
      intro label
      apply (confinedTo_hoisted fun inner => confinedTo_stmts inner first body).bind
      intro body
      apply (confinedTo_clauses scope first select (index + 1) rest).bind
      intro clauses
      exact confinedTo_pure _

end

/-- Emitting a statement in a scope that exists, whether it succeeds or fails, keeps the other
scopes, adds locals to this scope and opens scopes inside it. -/
theorem stmt_confined (scope : ScopeId) (s : Stmt) (σ : Setting) (w : Workspace)
    (isScope : scope < w.scopes.size) :
    ScopeTree.Confined scope w.scopes (stmt scope s σ w).2.scopes :=
  (confinedTo_stmt scope w.scopes.size s σ w (Nat.le_refl _)).confined isScope

/-- A `switch` on a truth value, whose clause declares `y` and `z`. -/
def declaringSwitch : Stmt :=
  .switchOn ⟨1, ⟨0, 30⟩⟩ (.bool ⟨2, ⟨8, 12⟩⟩ true)
    [⟨none, [.declaration ⟨3, ⟨20, 28⟩⟩
      [⟨⟨4, ⟨24, 25⟩⟩, "y", none⟩, ⟨⟨5, ⟨27, 28⟩⟩, "z", none⟩]]⟩]

/-- Without a type for `z` the `switch` fails before the locals of its clause move outward. -/
theorem stmt_confined_stopped :
    let σ : Setting := ⟨fun id => if id = 4 then some .number else none, "c"⟩
    let w : Workspace := { scopes := ⟨[⟨none, 0, [⟨"x", .string⟩]⟩]⟩ }
    (stmt 0 declaringSwitch σ w).1 = .error (.missingType ⟨27, 28⟩ (.localVariable "z")) ∧
      (stmt 0 declaringSwitch σ w).2.scopes.allLocals.map (·.name) = ["x", "tmp_switch", "y"] ∧
      ScopeTree.Confined 0 w.scopes (stmt 0 declaringSwitch σ w).2.scopes := by
  intro σ w
  refine ⟨by rfl, by decide +kernel, ?_⟩
  exact stmt_confined 0 declaringSwitch σ w (by decide)

end Emit

end ScriptToC
