import Mathlib.Data.List.Perm.Basic
import ScriptToC.Proofs.Ir.Parts
import ScriptToC.Proofs.Lowering.Bindings

/-!
# What lowering makes

A step of lowering makes new parts of a module. Each gets an identity that no other part has, a type
if it stands for a value, and its name is mentioned; no identity goes to anything else
(`State.Makes`). Types and mentions stay as they are in the steps that follow, and identities are
counted up, so that what two steps make can be put together (`Makes.append`). This carries over the
recursion on statements and expressions to whole scripts (`makes_lowerItems`).
-/

set_option autoImplicit false

namespace ScriptToC.Lowering

open Source
open Ir (Part)

variable {declared : Declared} {before middle after : State} {parts others : List Part}

theorem isSome_find?_insert (table : TypeTable) (id : NodeId) (type : CType) :
    ((table.insert id type).find? id).isSome = true := by
  rw [TypeTable.find?_insert, if_pos rfl]
  rfl

/-! ## New parts -/

/-- The parts are new from one state to the next, and all that is new. -/
structure State.Makes (before : State) (parts : List Part) (after : State) : Prop where
  grows : before.Grows after
  fresh : ∀ part ∈ parts, before.next ≤ part.id ∧ part.id < after.next
  complete : ∀ ⦃id : NodeId⦄, before.next ≤ id → id < after.next → ∃ part ∈ parts, part.id = id
  distinct : (parts.map Part.id).Nodup
  typed : ∀ part ∈ parts, part.isValue = true → (after.types.find? part.id).isSome = true
  named : ∀ part ∈ parts, ∀ name ∈ part.name?, name ∈ after.mentioned

namespace State

/-- A step that takes no node. -/
theorem Grows.makes (grows : before.Grows after) (next : after.next = before.next) :
    before.Makes [] after where
  grows := grows
  fresh := List.forall_mem_nil _
  complete := by
    intro id low high
    rw [next] at high
    exact absurd high (Nat.not_lt.2 low)
  distinct := List.nodup_nil
  typed := List.forall_mem_nil _
  named := List.forall_mem_nil _

theorem Makes.refl (state : State) : state.Makes [] state :=
  (Grows.refl state).makes rfl

section Later

variable (makes : before.Makes parts middle) (grows : middle.Grows after)

include makes grows

theorem Makes.fresh_later : ∀ part ∈ parts, before.next ≤ part.id ∧ part.id < after.next := by
  intro part member
  obtain ⟨low, high⟩ := makes.fresh part member
  exact ⟨low, Nat.lt_of_lt_of_le high grows.next⟩

theorem Makes.typed_later :
    ∀ part ∈ parts, part.isValue = true → (after.types.find? part.id).isSome = true := by
  intro part member isValue
  rw [grows.typed (makes.fresh part member).2]
  exact makes.typed part member isValue

theorem Makes.named_later : ∀ part ∈ parts, ∀ name ∈ part.name?, name ∈ after.mentioned := by
  intro part member name isName
  exact grows.mentioned (makes.named part member name isName)

end Later

/-- Parts stay made. -/
theorem Makes.then (makes : before.Makes parts middle) (grows : middle.Grows after)
    (next : after.next = middle.next) : before.Makes parts after where
  grows := makes.grows.trans grows
  fresh := makes.fresh_later grows
  complete := fun _ low high => makes.complete low (next ▸ high)
  distinct := makes.distinct
  typed := makes.typed_later grows
  named := makes.named_later grows

/-- Parts that are made earlier have lower identities. -/
theorem Makes.append (makes : before.Makes parts middle) (makes' : middle.Makes others after) :
    before.Makes (parts ++ others) after where
  grows := makes.grows.trans makes'.grows
  fresh := by
    refine List.forall_mem_append.2 ⟨makes.fresh_later makes'.grows, ?_⟩
    intro part member
    obtain ⟨low, high⟩ := makes'.fresh part member
    exact ⟨Nat.le_trans makes.grows.next low, high⟩
  complete := by
    intro id low high
    rcases Nat.lt_or_ge id middle.next with old | new
    · obtain ⟨part, member, same⟩ := makes.complete low old
      exact ⟨part, List.mem_append_left _ member, same⟩
    · obtain ⟨part, member, same⟩ := makes'.complete new high
      exact ⟨part, List.mem_append_right _ member, same⟩
  distinct := by
    rw [List.map_append, List.nodup_append]
    refine ⟨makes.distinct, makes'.distinct, ?_⟩
    intro id first other second same
    obtain ⟨part, member, rfl⟩ := List.mem_map.1 first
    obtain ⟨part', member', rfl⟩ := List.mem_map.1 second
    have high := (makes.fresh part member).2
    rw [same] at high
    exact Nat.not_lt.2 (makes'.fresh part' member').1 high
  typed := List.forall_mem_append.2 ⟨makes.typed_later makes'.grows, makes'.typed⟩
  named := List.forall_mem_append.2 ⟨makes.named_later makes'.grows, makes'.named⟩

/-- The parts in another order. -/
theorem Makes.perm (makes : before.Makes parts after) (perm : parts.Perm others) :
    before.Makes others after where
  grows := makes.grows
  fresh := fun part member => makes.fresh part (perm.mem_iff.2 member)
  complete := by
    intro id low high
    obtain ⟨part, member, same⟩ := makes.complete low high
    exact ⟨part, perm.mem_iff.1 member, same⟩
  distinct := (perm.map Part.id).nodup_iff.1 makes.distinct
  typed := fun part member => makes.typed part (perm.mem_iff.2 member)
  named := fun part member => makes.named part (perm.mem_iff.2 member)

/-- One more part, which takes the next identity. -/
theorem Makes.cons {part : Part} (makes : before.Makes parts middle) (grows : middle.Grows after)
    (isNew : part.id = middle.next) (next : after.next = middle.next + 1)
    (typed : part.isValue = true → (after.types.find? part.id).isSome = true)
    (named : ∀ name ∈ part.name?, name ∈ after.mentioned) :
    before.Makes (part :: parts) after := by
  refine ⟨makes.grows.trans grows, ?_, ?_, ?_, ?_, ?_⟩
  · refine List.forall_mem_cons.2 ⟨?_, makes.fresh_later grows⟩
    rw [isNew, next]
    exact ⟨makes.grows.next, Nat.lt_succ_self _⟩
  · intro id low high
    rw [next] at high
    rcases Nat.lt_succ_iff_lt_or_eq.1 high with old | rfl
    · obtain ⟨other, member, same⟩ := makes.complete low old
      exact ⟨other, List.mem_cons_of_mem _ member, same⟩
    · exact ⟨part, List.mem_cons_self, isNew⟩
  · rw [List.map_cons, List.nodup_cons]
    refine ⟨?_, makes.distinct⟩
    intro member
    obtain ⟨other, isOther, same⟩ := List.mem_map.1 member
    have old := (makes.fresh other isOther).2
    rw [same, isNew] at old
    exact Nat.lt_irrefl _ old
  · exact List.forall_mem_cons.2 ⟨typed, makes.typed_later grows⟩
  · exact List.forall_mem_cons.2 ⟨named, makes.named_later grows⟩

/-- An expression whose type is recorded at once. -/
theorem Makes.expr (makes : before.Makes parts middle) {e : Ir.Expr} (type : CType)
    (isNew : (Part.expr e).id = middle.next) (unnamed : (Part.expr e).name? = none) :
    before.Makes (.expr e :: parts) (middle.taken.record middle.next type) := by
  apply makes.cons (middle.grows_record type) isNew rfl
  · rw [isNew]
    exact fun _ => isSome_find?_insert _ _ _
  · rw [unnamed]
    nofun

/-- A variable that is declared at once. -/
theorem Makes.declares (makes : before.Makes parts middle) {part : Part} {name : String}
    (type : CType) (isNew : part.id = middle.next) (named : part.name? = some name) :
    before.Makes (part :: parts) (middle.taken.declare name type middle.next) := by
  apply makes.cons (middle.grows_declare name type) isNew rfl
  · rw [isNew]
    exact fun _ => isSome_find?_insert _ _ _
  · rw [named]
    rintro _ ⟨⟩
    exact List.mem_cons_self

/-- A statement, about which nothing is recorded. -/
theorem Makes.placed (makes : before.Makes parts middle) {s : Ir.Stmt}
    (isNew : (Part.stmt s).id = middle.next) : before.Makes (.stmt s :: parts) middle.taken :=
  makes.cons middle.grows_taken isNew rfl nofun nofun

end State

theorem State.next_mentions (state : State) (names : List String) :
    (names.foldl mention state).next = state.next := by
  induction names generalizing state with
  | nil => rfl
  | cons name rest ih => exact ih (state.mention name)

/-! ## Expressions -/

/-- Noting a growth takes no node. -/
theorem next_noteGrowth {e : Ir.Expr} {u : Unit}
    (run : noteGrowth e declared before = .ok (u, after)) : after.next = before.next := by
  rcases noteGrowth_cases run with rfl | ⟨binding, rfl⟩ <;> rfl

theorem State.makes_use (state : State) (span : Span) (name : String) :
    state.Makes (Ir.Expr.ident ⟨state.next, span⟩ name).parts
      (state.taken.use name state.next) := by
  obtain ⟨next, known, mentioned⟩ :
      (state.taken.use name state.next).next = state.next + 1 ∧
      ((state.taken.use name state.next).types.find? state.next).isSome = true ∧
      name ∈ (state.taken.use name state.next).mentioned := by
    rw [State.use]
    split <;> exact ⟨rfl, isSome_find?_insert _ _ _, List.mem_cons_self⟩
  refine (State.Makes.refl state).cons (state.grows_use name) rfl next (fun _ => known) ?_
  rintro _ ⟨⟩
  exact mentioned

mutual

/-- Lowering an expression makes its parts. -/
theorem LowersExpr.makes : ∀ {e : Expr} {before after : State} {result : Ir.Expr},
    LowersExpr declared e before result after → before.Makes result.parts after
  | _, _, _, _, .number .. | _, _, _, _, .string .. | _, _, _, _, .bool .. | _, _, _, _, .null ..
  | _, _, _, _, .template .. | _, _, _, _, .undefined .. =>
    (State.Makes.refl _).expr _ rfl rfl
  | _, _, _, _, .ident span state _ => state.makes_use span _
  | _, _, _, _, .paren first => by
      refine first.makes.cons (State.grows_shareType _ _) rfl rfl ?_ nofun
      exact fun _ => isSome_find?_insert _ _ _
  | _, _, _, _, .typed first => first.makes
  | _, _, _, _, .array each => each.makes.expr _ rfl rfl
  | _, _, _, _, .object each => each.makes.expr _ rfl rfl
  | _, _, _, _, .member first => first.makes.expr _ rfl rfl
  | _, _, _, _, .index first second => (first.makes.append second.makes).expr _ rfl rfl
  | _, _, _, _, .call first each growth => by
      have inner := first.makes.append each.makes
      exact (inner.then (growing_noteGrowth _ growth) (next_noteGrowth growth)).expr _ rfl rfl
  | _, _, _, _, .unary _ first => first.makes.expr _ rfl rfl
  | _, _, _, _, .update first => first.makes.expr _ rfl rfl
  | _, _, _, _, .binary _ first second | _, _, _, _, .logical _ first second =>
    (first.makes.append second.makes).expr _ rfl rfl
  | _, _, _, _, .assign _ first second => (first.makes.append second.makes).expr _ rfl rfl
  | _, _, _, _, .conditional first second third =>
    ((first.makes.append second.makes).append third.makes).expr _ rfl rfl

theorem LowersTarget.makes : ∀ {e : Expr} {before after : State} {result : Ir.Expr},
    LowersTarget declared e before result after → before.Makes result.parts after
  | _, _, _, _, .ident span name state => state.makes_use span name
  | _, _, _, _, .member first => first.makes.expr _ rfl rfl
  | _, _, _, _, .index first second => (first.makes.append second.makes).expr _ rfl rfl

theorem LowersPlain.makes : ∀ {list : List (Option Expr)} {before after : State}
    {result : List Ir.Expr}, LowersPlain declared list before result after →
      before.Makes (Ir.listParts result) after
  | _, _, _, _, .nil state => State.Makes.refl state
  | _, _, _, _, .cons first others => first.makes.append others.makes

theorem LowersProperties.makes : ∀ {list : List (Option (Property Expr))} {before after : State}
    {result : List (String × Ir.Expr)}, LowersProperties declared list before result after →
      before.Makes (Ir.propertyParts result) after
  | _, _, _, _, .nil state => State.Makes.refl state
  | _, _, _, _, .cons first others => first.makes.append others.makes

end

/-- Lowering a part that may be missing makes its parts. -/
theorem LowersPart.makes {part : Option Expr} {result : Option Ir.Expr}
    (lowers : LowersPart declared part before result after) :
    before.Makes (Ir.partsOf result) after := by
  cases lowers with
  | none => exact State.Makes.refl before
  | some first => exact first.makes

/-! ## Statements -/

theorem LowersDeclarators.makes {declarators : List Declarator} {list : List Ir.Declarator}
    (lowers : LowersDeclarators declared declarators before list after) :
    before.Makes (list.flatMap Ir.Declarator.parts) after := by
  induction lowers with
  | nil state => exact State.Makes.refl state
  | cons _ init _ ih => exact (init.makes.declares _ rfl rfl).append ih

theorem LowersForLeft.makes {element : CType} {left : ForLeft} {result : Ir.ForBinding}
    (lowers : LowersForLeft declared element left before result after) :
    before.Makes result.parts after := by
  cases lowers with
  | declare => exact (State.Makes.refl before).declares _ rfl rfl
  | target first => exact first.makes

theorem LowersStart.makes {init : Option ForInit} {result : Option Ir.ForInit}
    (lowers : LowersStart declared init before result after) :
    before.Makes (Ir.startParts result) after := by
  cases lowers with
  | none => exact State.Makes.refl before
  | declare declares => exact declares.makes
  | evaluate first => exact first.makes

/-- What is made in a scope of its own is made. -/
theorem State.Makes.leave (makes : before.Makes parts after) (outer : State) :
    before.Makes parts (after.leave outer) :=
  makes.then (after.grows_leave outer) rfl

/-- A statement that stands under a condition or a loop. -/
theorem State.Makes.body {s : Ir.Stmt} (makes : before.Makes s.parts after) :
    before.Makes (Ir.bodyParts s.toBody) after := by
  rwa [Ir.bodyParts_toBody]

mutual

/-- Lowering a statement makes its parts. -/
theorem LowersStmt.makes : ∀ {s : Stmt} {before after : State} {result : Ir.Stmt},
    LowersStmt declared s before result after → before.Makes result.parts after
  | _, _, _, _, .declaration declares => declares.makes.placed rfl
  | _, _, _, _, .expression first => first.makes.placed rfl
  | _, _, _, _, .returnStmt first => first.makes.placed rfl
  | _, _, _, _, .ifThen head inside | _, _, _, _, .whileLoop head inside =>
    (head.makes.append (inside.makes.body.leave _)).placed rfl
  | _, _, _, _, .ifElse head yes no =>
    ((head.makes.append (yes.makes.body.leave _)).append (no.makes.body.leave _)).placed rfl
  | _, _, _, _, .doLoop inside tail =>
    ((inside.makes.body.leave _).append tail.makes).placed rfl
  | _, _, _, _, .forLoop start head step inside => by
      have head := (start.makes.append head.makes).append step.makes
      exact ((head.append (inside.makes.body.leave _)).leave _).placed rfl
  | _, _, _, _, .forOf first head inside => by
      have head := first.makes.append head.makes
      exact ((head.append (inside.makes.leave _)).leave _).placed rfl
  | _, _, _, _, .forIn first head inside => by
      have head := first.makes.append head.makes
      exact ((head.append (inside.makes.body.leave _)).leave _).placed rfl
  | _, _, _, _, .switchOn head each => (head.makes.append (each.makes.leave _)).placed rfl
  | _, _, _, _, .breakStmt .. | _, _, _, _, .continueStmt .. | _, _, _, _, .emptyStmt .. =>
    (State.Makes.refl _).placed rfl
  | _, _, _, _, .block all => (all.makes.leave _).placed rfl
  | _, _, _, _, .importFrom _ names _ state =>
    ((State.grows_mentions names state).makes (state.next_mentions names)).placed rfl

theorem LowersStmts.makes : ∀ {body : List Stmt} {before after : State} {result : List Ir.Stmt},
    LowersStmts declared body before result after → before.Makes (Ir.rowParts result) after
  | _, _, _, _, .nil state => State.Makes.refl state
  | _, _, _, _, .typeOnly others => others.makes
  | _, _, _, _, .cons first others => first.makes.append others.makes

theorem LowersCases.makes : ∀ {cases : List (Case Stmt)} {before after : State}
    {result : List (Ir.Clause Ir.Stmt)}, LowersCases declared cases before result after →
      before.Makes (Ir.clauseParts result) after
  | _, _, _, _, .nil state => State.Makes.refl state
  | _, _, _, _, .cons head inside others =>
    (head.makes.append inside.makes).append others.makes

end

/-! ## Scripts -/

theorem LowersParams.makes {params : List Param} {list : List Ir.Param}
    (lowers : LowersParams declared params before list after) :
    before.Makes (list.map Part.param) after := by
  induction lowers with
  | nil state => exact State.Makes.refl state
  | cons _ _ ih => exact ((State.Makes.refl _).declares _ rfl rfl).append ih

/-- Lowering a function makes its parts, if it has a body. -/
theorem LowersFunction.makes {f : Function} {result : Option Ir.Function}
    (lowers : LowersFunction declared f before result after) :
    before.Makes (result.toList.flatMap Ir.Function.parts) after := by
  cases lowers with
  | declaration => exact (before.grows_mention _).makes rfl
  | definition _ _ _ _ params all =>
    have inside := params.makes.append all.makes
    have opened := (((before.grows_mention _).trans (State.grows_hidden _)).makes rfl).append inside
    rw [Option.toList_some, List.flatMap_singleton]
    refine (opened.leave before).cons (State.grows_taken _) rfl rfl
      (by simp [Ir.Part.isValue]) ?_
    rintro _ ⟨⟩
    exact inside.grows.mentioned List.mem_cons_self

/-- A statement of the main program and the rest of the module. -/
theorem State.Makes.topLevel {s : Ir.Stmt} {module : Ir.Module}
    (makes : before.Makes s.parts middle) (makes' : middle.Makes module.parts after) :
    before.Makes { module with topLevel := s :: module.topLevel }.parts after :=
  (makes.append makes').perm (Ir.parts_topLevel_cons module s).symm

/-- Lowering the items of a script makes the parts of its module. -/
theorem LowersItems.makes {items : List Item} {module : Ir.Module}
    (lowers : LowersItems declared items before module after) :
    before.Makes module.parts after := by
  induction lowers with
  | nil state => exact State.Makes.refl state
  | function first _ ih =>
    have makes := first.makes.append ih
    rwa [Ir.Module.parts, ← List.append_assoc, ← List.flatMap_append] at makes
  | exportedVariables first _ ih | statement first _ ih => exact first.makes.topLevel ih
  | typeOnly _ ih | interface _ ih | typeAlias _ ih => exact ih

/-- Lowering a script makes the parts of its module. -/
theorem makes_lowerItems {items : List Item} {module : Ir.Module}
    (run : lowerItems items declared before = .ok (module, after)) :
    before.Makes module.parts after :=
  (lowersItems_of_run items run).makes

end ScriptToC.Lowering
