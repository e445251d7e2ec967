import ScriptToC.Proofs.Lowering.Rules

/-!
# Lowering only adds

Every part of a script gets a node of its own, and nothing that is said about a node is changed
later: it keeps its type and the binding that it carries. A binding keeps its type as well, except
that an array may move to the heap, and the names that are mentioned stay mentioned. This holds of
every part of a script that is lowered (`LowersStmt.grows`).
-/

set_option autoImplicit false

namespace ScriptToC.Lowering

open Source

variable {declared : Declared} {before after : State}

/-! ## Growing states -/

/-- What is known of nodes and bindings stays known. -/
structure State.Grows (before after : State) : Prop where
  next : before.next ≤ after.next
  typed : ∀ {id : NodeId}, id < before.next → after.types.find? id = before.types.find? id
  carries : ∀ {id : NodeId}, id < before.next → after.bindingOf? id = before.bindingOf? id
  bound : ∀ {binding : BindingId} {type : CType}, before.bindings[binding]? = some type →
    after.bindings[binding]? = some type ∨ after.bindings[binding]? = some type.onHeap
  mentioned : ∀ {name : String}, name ∈ before.mentioned → name ∈ after.mentioned

namespace State

theorem Grows.refl (state : State) : state.Grows state where
  next := Nat.le_refl _
  typed := fun _ => rfl
  carries := fun _ => rfl
  bound := .inl
  mentioned := id

theorem Grows.trans {first second third : State} (grows : first.Grows second)
    (grows' : second.Grows third) : first.Grows third where
  next := Nat.le_trans grows.next grows'.next
  typed := by
    intro id old
    rw [grows'.typed (Nat.lt_of_lt_of_le old grows.next), grows.typed old]
  carries := by
    intro id old
    rw [grows'.carries (Nat.lt_of_lt_of_le old grows.next), grows.carries old]
  bound := by
    intro binding type found
    rcases grows.bound found with same | onHeap
    · exact grows'.bound same
    · have later := grows'.bound onHeap
      rw [CType.onHeap_onHeap, or_self] at later
      exact .inr later
  mentioned := fun known => grows'.mentioned (grows.mentioned known)

theorem Grows.typeOf_eq (grows : before.Grows after) {id : NodeId} (small : id < before.next) :
    after.typeOf id = before.typeOf id := by
  rw [typeOf, grows.typed small, typeOf]

/-- A state that says more about the next node only. -/
theorem grows_of_next {type : CType} (next : after.next = before.next + 1)
    (types : after.types = before.types.insert before.next type)
    (carriers : after.carriers = before.carriers ∨
      ∃ binding, after.carriers = before.carriers.insert before.next binding)
    (bindings : after.bindings = before.bindings ∨ ∃ new, after.bindings = before.bindings.push new)
    (mentioned : ∀ {name : String}, name ∈ before.mentioned → name ∈ after.mentioned) :
    before.Grows after where
  next := next ▸ Nat.le_succ _
  typed := by
    intro id old
    rw [types, TypeTable.find?_insert, if_neg (Nat.ne_of_lt old)]
  carries := by
    intro id old
    rw [bindingOf?, bindingOf?]
    rcases carriers with same | ⟨binding, grown⟩
    · rw [same]
    · rw [grown, Std.TreeMap.getElem?_insert, if_neg]
      intro same
      exact Nat.ne_of_gt old (Std.LawfulEqCmp.compare_eq_iff_eq.1 same)
  bound := by
    intro binding type found
    rcases bindings with same | ⟨new, grown⟩
    · rw [same]
      exact .inl found
    · obtain ⟨small, -⟩ := Array.getElem?_eq_some_iff.1 found
      rw [grown, Array.getElem?_push, if_neg (Nat.ne_of_lt small)]
      exact .inl found
  mentioned := mentioned

theorem grows_taken (state : State) : state.Grows state.taken where
  next := Nat.le_succ _
  typed := fun _ => rfl
  carries := fun _ => rfl
  bound := .inl
  mentioned := id

theorem grows_record (state : State) (type : CType) :
    state.Grows (state.taken.record state.next type) :=
  grows_of_next rfl rfl (.inl rfl) (.inl rfl) id

theorem grows_inferred (state : State) (e : Ir.Expr) : state.Grows (state.inferred declared e) :=
  state.grows_record _

theorem grows_declare (state : State) (name : String) (type : CType) :
    state.Grows (state.taken.declare name type state.next) :=
  grows_of_next rfl rfl (.inr ⟨_, rfl⟩) (.inr ⟨_, rfl⟩) (List.mem_cons_of_mem _)

theorem grows_use (state : State) (name : String) :
    state.Grows (state.taken.use name state.next) := by
  rw [use]
  split
  · exact grows_of_next rfl rfl (.inr ⟨_, rfl⟩) (.inl rfl) (List.mem_cons_of_mem _)
  · exact grows_of_next rfl rfl (.inl rfl) (.inl rfl) (List.mem_cons_of_mem _)

theorem grows_shareType (state : State) (inner : NodeId) :
    state.Grows (state.taken.shareType state.next inner) := by
  rw [shareType]
  split
  · exact grows_of_next rfl rfl (.inr ⟨_, rfl⟩) (.inl rfl) id
  · exact grows_of_next rfl rfl (.inl rfl) (.inl rfl) id

theorem grows_mention (state : State) (name : String) : state.Grows (state.mention name) where
  next := Nat.le_refl _
  typed := fun _ => rfl
  carries := fun _ => rfl
  bound := .inl
  mentioned := List.mem_cons_of_mem _

theorem grows_mentions (names : List String) (state : State) :
    state.Grows (names.foldl mention state) := by
  induction names generalizing state with
  | nil => exact .refl state
  | cons name rest ih => exact (grows_mention state name).trans (ih _)

theorem grows_visible (state : State) (visible : List (String × BindingId)) :
    state.Grows { state with visible } where
  next := Nat.le_refl _
  typed := fun _ => rfl
  carries := fun _ => rfl
  bound := .inl
  mentioned := id

theorem grows_hidden (state : State) : state.Grows state.hidden :=
  state.grows_visible []

theorem grows_leave (inner before : State) : inner.Grows (inner.leave before) :=
  inner.grows_visible before.visible

/-- A statement gets its node after a scope has ended. -/
theorem grows_placed (inner before : State) : inner.Grows (inner.leave before).taken :=
  (inner.grows_leave before).trans (grows_taken _)

/-- An array that is grown moves to the heap. -/
theorem grows_grow (state : State) (binding : BindingId) : state.Grows (state.grow binding) where
  next := Nat.le_refl _
  typed := fun _ => rfl
  carries := fun _ => rfl
  bound := by
    intro other type found
    rw [grow, Array.getElem?_modify, found]
    split
    · exact .inr rfl
    · exact .inl rfl
  mentioned := id

end State

/-! ## Expressions -/

/-- A step that only adds, if it succeeds. -/
def Growing {α : Type} (m : LowerM α) : Prop :=
  ∀ ⦃declared : Declared⦄ ⦃before after : State⦄ ⦃a : α⦄,
    m declared before = .ok (a, after) → before.Grows after

/-- Noting a growth moves an array to the heap, or does nothing. -/
theorem noteGrowth_cases {e : Ir.Expr} {u : Unit}
    (run : noteGrowth e declared before = .ok (u, after)) :
    after = before ∨ ∃ binding, after = before.grow binding := by
  unfold noteGrowth at run
  split at run
  next object property =>
    split at run
    · obtain rfl := modify_ok.1 run
      split
      · exact .inr ⟨_, rfl⟩
      · exact .inl rfl
    · exact .inl (pure_ok.1 run).2.symm
  next => exact .inl (pure_ok.1 run).2.symm

theorem growing_noteGrowth (e : Ir.Expr) : Growing (noteGrowth e) := by
  intro declared before after u run
  rcases noteGrowth_cases run with rfl | ⟨binding, rfl⟩
  · exact .refl _
  · exact before.grows_grow binding

mutual

/-- Lowering an expression only adds. -/
theorem LowersExpr.grows : ∀ {e : Expr} {before after : State} {result : Ir.Expr},
    LowersExpr declared e before result after → before.Grows after
  | _, _, _, _, .number .. | _, _, _, _, .string .. | _, _, _, _, .bool .. | _, _, _, _, .null ..
  | _, _, _, _, .template .. | _, _, _, _, .undefined .. => State.grows_inferred _ _
  | _, _, _, _, .ident _ state _ => state.grows_use _
  | _, _, _, _, .paren first => first.grows.trans (State.grows_shareType _ _)
  | _, _, _, _, .typed first => first.grows
  | _, _, _, _, .array each => each.grows.trans (State.grows_inferred _ _)
  | _, _, _, _, .object each => each.grows.trans (State.grows_inferred _ _)
  | _, _, _, _, .member first => first.grows.trans (State.grows_inferred _ _)
  | _, _, _, _, .index first second =>
    (first.grows.trans second.grows).trans (State.grows_inferred _ _)
  | _, _, _, _, .call first each growth =>
    ((first.grows.trans each.grows).trans (growing_noteGrowth _ growth)).trans
      (State.grows_inferred _ _)
  | _, _, _, _, .unary _ first => first.grows.trans (State.grows_inferred _ _)
  | _, _, _, _, .update first => first.grows.trans (State.grows_inferred _ _)
  | _, _, _, _, .binary _ first second | _, _, _, _, .logical _ first second =>
    (first.grows.trans second.grows).trans (State.grows_inferred _ _)
  | _, _, _, _, .assign _ first second =>
    (first.grows.trans second.grows).trans (State.grows_inferred _ _)
  | _, _, _, _, .conditional first second third =>
    ((first.grows.trans second.grows).trans third.grows).trans (State.grows_inferred _ _)

theorem LowersTarget.grows : ∀ {e : Expr} {before after : State} {result : Ir.Expr},
    LowersTarget declared e before result after → before.Grows after
  | _, _, _, _, .ident _ _ state => state.grows_use _
  | _, _, _, _, .member first => first.grows.trans (State.grows_inferred _ _)
  | _, _, _, _, .index first second =>
    (first.grows.trans second.grows).trans (State.grows_inferred _ _)

theorem LowersPlain.grows : ∀ {list : List (Option Expr)} {before after : State}
    {result : List Ir.Expr}, LowersPlain declared list before result after → before.Grows after
  | _, _, _, _, .nil state => .refl state
  | _, _, _, _, .cons first others => first.grows.trans others.grows

theorem LowersProperties.grows : ∀ {list : List (Option (Property Expr))} {before after : State}
    {result : List (String × Ir.Expr)},
    LowersProperties declared list before result after → before.Grows after
  | _, _, _, _, .nil state => .refl state
  | _, _, _, _, .cons first others => first.grows.trans others.grows

end

/-! ## Statements -/

theorem LowersPart.grows {part : Option Expr} {result : Option Ir.Expr}
    (lowers : LowersPart declared part before result after) : before.Grows after := by
  cases lowers with
  | none => exact .refl before
  | some first => exact first.grows

theorem LowersDeclarators.grows {declarators : List Declarator} {list : List Ir.Declarator}
    (lowers : LowersDeclarators declared declarators before list after) : before.Grows after := by
  induction lowers with
  | nil state => exact .refl state
  | cons _ init _ ih => exact (init.grows.trans (State.grows_declare _ _ _)).trans ih

theorem LowersForLeft.grows {element : CType} {left : ForLeft} {result : Ir.ForBinding}
    (lowers : LowersForLeft declared element left before result after) : before.Grows after := by
  cases lowers with
  | declare => exact before.grows_declare _ element
  | target first => exact first.grows

theorem LowersStart.grows {init : Option ForInit} {result : Option Ir.ForInit}
    (lowers : LowersStart declared init before result after) : before.Grows after := by
  cases lowers with
  | none => exact .refl before
  | declare declares => exact declares.grows
  | evaluate first => exact first.grows

mutual

/-- Lowering a statement only adds. -/
theorem LowersStmt.grows : ∀ {s : Stmt} {before after : State} {result : Ir.Stmt},
    LowersStmt declared s before result after → before.Grows after
  | _, _, _, _, .declaration declares => declares.grows.trans (State.grows_taken _)
  | _, _, _, _, .expression first => first.grows.trans (State.grows_taken _)
  | _, _, _, _, .returnStmt first => first.grows.trans (State.grows_taken _)
  | _, _, _, _, .ifThen head inside | _, _, _, _, .whileLoop head inside =>
    head.grows.trans (inside.grows.trans (State.grows_placed _ _))
  | _, _, _, _, .ifElse head yes no =>
    (head.grows.trans (yes.grows.trans (State.grows_leave _ _))).trans
      (no.grows.trans (State.grows_placed _ _))
  | _, _, _, _, .doLoop inside tail =>
    (inside.grows.trans (State.grows_leave _ _)).trans (tail.grows.trans (State.grows_taken _))
  | _, _, _, _, .forLoop start head step inside =>
    ((start.grows.trans head.grows).trans (step.grows.trans inside.grows)).trans
      ((State.grows_leave _ _).trans (State.grows_placed _ _))
  | _, _, _, _, .forOf first head inside | _, _, _, _, .forIn first head inside =>
    ((first.grows.trans head.grows).trans inside.grows).trans
      ((State.grows_leave _ _).trans (State.grows_placed _ _))
  | _, _, _, _, .switchOn head each =>
    head.grows.trans (each.grows.trans (State.grows_placed _ _))
  | _, _, _, _, .breakStmt _ state | _, _, _, _, .continueStmt _ state
  | _, _, _, _, .emptyStmt _ state => state.grows_taken
  | _, _, _, _, .block all => all.grows.trans (State.grows_placed _ _)
  | _, _, _, _, .importFrom _ names _ state =>
    (State.grows_mentions names state).trans (State.grows_taken _)

theorem LowersStmts.grows : ∀ {body : List Stmt} {before after : State} {result : List Ir.Stmt},
    LowersStmts declared body before result after → before.Grows after
  | _, _, _, _, .nil state => .refl state
  | _, _, _, _, .typeOnly others => others.grows
  | _, _, _, _, .cons first others => first.grows.trans others.grows

theorem LowersCases.grows : ∀ {cases : List (Case Stmt)} {before after : State}
    {result : List (Ir.Clause Ir.Stmt)},
    LowersCases declared cases before result after → before.Grows after
  | _, _, _, _, .nil state => .refl state
  | _, _, _, _, .cons head inside others =>
    (head.grows.trans inside.grows).trans others.grows

end

/-! ## Programs -/

theorem LowersParams.grows {params : List Param} {list : List Ir.Param}
    (lowers : LowersParams declared params before list after) : before.Grows after := by
  induction lowers with
  | nil state => exact .refl state
  | cons _ _ ih => exact (State.grows_declare _ _ _).trans ih

theorem LowersFunction.grows {f : Function} {result : Option Ir.Function}
    (lowers : LowersFunction declared f before result after) : before.Grows after := by
  cases lowers with
  | declaration => exact before.grows_mention _
  | definition _ _ _ _ params all =>
    have inside := (State.grows_hidden _).trans (params.grows.trans all.grows)
    exact (before.grows_mention _).trans (inside.trans (State.grows_placed _ _))

/-- Lowering the items of a script only adds. -/
theorem LowersItems.grows {items : List Item} {module : Ir.Module}
    (lowers : LowersItems declared items before module after) : before.Grows after := by
  induction lowers with
  | nil state => exact .refl state
  | function first _ ih => exact first.grows.trans ih
  | exportedVariables first _ ih | statement first _ ih => exact first.grows.trans ih
  | typeOnly _ ih | interface _ ih | typeAlias _ ih => exact ih

end ScriptToC.Lowering
