import ScriptToC.Proofs.Lowering.Final
import ScriptToC.Proofs.Lowering.Initializers

/-!
# Inference on the final types

Types are inferred once, in the order of the text, and an array may be found to grow later. This
module says when inference on the types at the end would find the same types again
(`State.Fixpoint`). Most rules do not see whether an array is on the heap. Five take over a type as
it is: an array has the type of its first element in its own, an object that of its first value, an
assignment has the type of what is assigned, a conditional expression that of its first branch, and
a variable without an annotation that of its initializer. If the use of a variable stands there that
growth has overtaken, the fixed array stays in the type; only a variable that grows by itself is on
the heap anyway. So inference finds the same types exactly if no such use stands in such a place
(`resolved_fixpoint_iff`).
-/

set_option autoImplicit false

namespace ScriptToC

/-- The expression whose type an expression takes over as it is. -/
def Ir.Expr.copied? : Expr → Option Expr
  | .array _ elements => elements.head?
  | .object _ properties => properties.head?.map (·.2)
  | .assign _ _ _ value => some value
  | .conditional _ _ yes _ => some yes
  | _ => none

/-- What is taken over stands in the expression. -/
theorem Ir.Expr.mem_of_copied {e inner : Expr} (copied : inner ∈ e.copied?) :
    .expr inner ∈ e.parts.tail := by
  cases e with
  | array node elements =>
    obtain ⟨rest, rfl⟩ := List.head?_eq_some_iff.1 copied
    exact List.mem_append_left _ inner.expr_mem_parts
  | object node properties =>
    obtain ⟨⟨name, e⟩, first, rfl⟩ := Option.map_eq_some_iff.1 copied
    obtain ⟨rest, rfl⟩ := List.head?_eq_some_iff.1 first
    exact List.mem_append_left _ e.expr_mem_parts
  | assign node op target value =>
    cases copied
    exact List.mem_append_right _ inner.expr_mem_parts
  | conditional node test yes no =>
    cases copied
    simp [parts, inner.expr_mem_parts]
  | _ => cases copied

/-- The expression that a part is. -/
def Ir.Part.expr? : Part → Option Expr
  | expr e => some e
  | _ => none

theorem Ir.Part.eq_expr {part : Part} {e : Expr} (isExpr : part.expr? = some e) :
    part = .expr e := by
  cases part <;> cases isExpr
  rfl

theorem CType.isString_promoted (type : CType) (grown : Bool) :
    (type.promoted grown).isString = type.isString := by
  cases type <;> rfl

namespace Lowering

open Source
open Ir (Part)

variable {declared : Declared} {state : State} {known : List Part} {e : Ir.Expr}

/-- Inference from promoted types finds the same type exactly if the type that is taken over is the
same. Names and parentheses are no matter of inference. -/
theorem inferType_promoted_iff {typeOf final : NodeId → CType}
    (unnamed : (Part.expr e).name? = none) (unwrapped : (Part.expr e).wrapped? = none)
    (promoted : ∀ inner : Ir.Expr, .expr inner ∈ e.parts.tail →
      ∃ grown, final inner.id = (typeOf inner.id).promoted grown) :
    inferType declared final e = inferType declared typeOf e ↔
      ∀ inner ∈ e.copied?, final inner.id = typeOf inner.id := by
  have first (e : Ir.Expr) (others : List Part) : Part.expr e ∈ e.parts ++ others :=
    List.mem_append_left _ e.expr_mem_parts
  cases e with
  | ident => cases unnamed
  | paren => cases unwrapped
  | array node elements => cases elements <;> simp [inferType, Ir.Expr.copied?]
  | object node properties => cases properties <;> simp [inferType, Ir.Expr.copied?]
  | assign => simp [inferType, Ir.Expr.copied?]
  | conditional => simp [inferType, Ir.Expr.copied?]
  | member node object property =>
    obtain ⟨grown, eq⟩ := promoted object object.expr_mem_parts
    simp only [inferType, eq, Ir.Expr.copied?]
    cases typeOf object.id <;> simp [CType.promoted]
  | index node object key =>
    obtain ⟨grown, eq⟩ := promoted object (first object _)
    simp only [inferType, eq, Ir.Expr.copied?]
    cases typeOf object.id <;> simp [CType.promoted]
  | call node callee args =>
    cases callee with
    | member inner object property =>
      obtain ⟨grown, eq⟩ := promoted object (List.mem_append_left _
        (List.mem_cons_of_mem _ object.expr_mem_parts))
      simp only [inferType, eq, Ir.Expr.copied?]
      cases typeOf object.id <;> simp [CType.promoted]
    | _ => simp [inferType, Ir.Expr.copied?]
  | binary node op lhs rhs =>
    obtain ⟨grown, eq⟩ := promoted lhs (first lhs _)
    obtain ⟨grown', eq'⟩ := promoted rhs (List.mem_append_right _ rhs.expr_mem_parts)
    simp [inferType, eq, eq', CType.isString_promoted, Ir.Expr.copied?]
  | unary node op arg => cases op <;> simp [inferType, Ir.Expr.copied?]
  | _ => simp [inferType, Ir.Expr.copied?]

namespace State

/-! ## Inference on the final types -/

/-- The type of a node at the end; one that has none is unknown. -/
def finalType (state : State) (id : NodeId) : CType :=
  (state.resolved.find? id).getD .unknown

/-- A call among the parts grows the array of the variable at a node. -/
def growsAt (state : State) (parts : List Part) (id : NodeId) : Bool :=
  (state.bindingOf? id).elim false (state.isGrown parts)

/-- The type that an expression has by the types at the end: a name has the type of its variable,
and the type of another expression is inferred. -/
def inferredAgain (declared : Declared) (state : State) : Ir.Expr → CType
  | .ident node _ =>
    ((state.bindingOf? node.id).bind fun binding => state.bindings[binding]?).getD .unknown
  | e => inferType declared state.finalType e

/-- Inference on the types at the end finds these types again: for the expressions, for the
variables without an annotation from their initializers, and for the variables of loops over the
elements of an array. A variable is promoted if it grows by itself. -/
structure Fixpoint (declared : Declared) (state : State) (sources : List Declarator)
    (parts : List Part) : Prop where
  expressions : ∀ e, .expr e ∈ parts →
    state.resolved.find? e.id = some (state.inferredAgain declared e)
  declarations : List.Forall₂ (fun source (d : Ir.Declarator) => annotated? declared source = none →
    ∀ init ∈ d.init, state.resolved.find? d.node.id =
      some ((state.finalType init.id).promoted (state.growsAt parts d.node.id)))
    sources (Ir.declaratorsOf parts)
  loops : ∀ part ∈ parts, ∀ pair ∈ part.loop?, state.resolved.find? pair.1.node.id =
    some ((elementType (state.finalType pair.2.id)).promoted (state.growsAt parts pair.1.node.id))

instance (declared : Declared) (state : State) (sources : List Declarator) (parts : List Part) :
    Decidable (state.Fixpoint declared sources parts) :=
  decidable_of_iff
    ((∀ part ∈ parts, ∀ e ∈ part.expr?,
        state.resolved.find? e.id = some (state.inferredAgain declared e)) ∧
      List.Forall₂ (fun source (d : Ir.Declarator) => annotated? declared source = none →
        ∀ init ∈ d.init, state.resolved.find? d.node.id =
          some ((state.finalType init.id).promoted (state.growsAt parts d.node.id)))
        sources (Ir.declaratorsOf parts) ∧
      ∀ part ∈ parts, ∀ pair ∈ part.loop?, state.resolved.find? pair.1.node.id =
        some ((elementType (state.finalType pair.2.id)).promoted
          (state.growsAt parts pair.1.node.id)))
    ⟨fun ⟨expressions, declarations, loops⟩ =>
      ⟨fun e member => expressions _ member e rfl, declarations, loops⟩,
    fun ⟨expressions, declarations, loops⟩ =>
      ⟨fun _ member e isExpr => expressions e (Ir.Part.eq_expr isExpr ▸ member), declarations,
        loops⟩⟩

/-- No use that growth has overtaken stands where its type is taken over, except as the initializer
of a variable that grows by itself. -/
structure Timely (declared : Declared) (state : State) (sources : List Declarator)
    (parts : List Part) : Prop where
  expressions : ∀ e, .expr e ∈ parts → ∀ inner ∈ e.copied?, ¬ state.Overtaken parts inner.bare.id
  declarations : List.Forall₂ (fun source (d : Ir.Declarator) => annotated? declared source = none →
    ∀ init ∈ d.init, state.Overtaken parts init.bare.id → state.growsAt parts d.node.id = true)
    sources (Ir.declaratorsOf parts)

namespace Recorded

theorem final_typeOf (recorded : state.Recorded declared known) (member : .expr e ∈ known) :
    ∃ grown, state.finalType e.id = (state.typeOf e.id).promoted grown := by
  obtain ⟨type, grown, typed, final⟩ := recorded.final member
  refine ⟨grown, ?_⟩
  rw [finalType, final, typeOf, typed]
  rfl

/-- A use has another type at the end exactly if growth has overtaken it. -/
theorem finalType_eq_iff (recorded : state.Recorded declared known) (member : .expr e ∈ known) :
    state.finalType e.id = state.typeOf e.id ↔ ¬ state.Overtaken known e.bare.id := by
  obtain ⟨type, grown, typed, final⟩ := recorded.final member
  rw [← recorded.final_ne_iff member, not_not, finalType, typeOf, final, typed, Option.some_inj]
  rfl

/-- The type of an expression that is no name, and stands in no parentheses, stays. -/
theorem final_of_unnamed (recorded : state.Recorded declared known) (member : .expr e ∈ known)
    (unnamed : (Part.expr e).name? = none) (unwrapped : (Part.expr e).wrapped? = none) :
    state.resolved.find? e.id = some (inferType declared state.typeOf e) := by
  have uncarried : state.bindingOf? e.id = none :=
    recorded.binds.untied _ member unnamed unwrapped
  rw [find?_resolved_of_none uncarried]
  exact (recorded.each _ member).inferred e rfl unnamed

/-- Inference finds the type of an expression again exactly if no use that growth has overtaken
stands where its type is taken over. -/
theorem inferredAgain_iff (recorded : state.Recorded declared known) (member : .expr e ∈ known) :
    state.resolved.find? e.id = some (state.inferredAgain declared e) ↔
      ∀ inner ∈ e.copied?, ¬ state.Overtaken known inner.bare.id := by
  cases named : (Part.expr e).name? with
  | some name =>
    obtain ⟨node, rfl⟩ : ∃ node, e = .ident node name := by
      cases e with
      | ident node other =>
        cases named
        exact ⟨node, rfl⟩
      | _ => cases named
    refine iff_of_true ?_ nofun
    change state.resolved.find? node.id = some (((state.bindingOf? node.id).bind _).getD _)
    cases carries : state.bindingOf? node.id with
    | none =>
      rw [find?_resolved_of_none carries]
      exact (recorded.each _ member).free _ rfl rfl carries
    | some binding =>
      have small := recorded.binds.sound.carried carries
      have bound : state.bindings[binding]? = some state.bindings[binding] :=
        Array.getElem?_eq_getElem small
      rw [Option.bind_some, bound]
      exact find?_resolved (recorded.binds.isSome_types member carries) carries bound
  | none =>
    have again : state.inferredAgain declared e = inferType declared state.finalType e := by
      cases e with
      | ident => cases named
      | _ => rfl
    rw [again]
    cases wraps : (Part.expr e).wrapped? with
    | some id =>
      obtain ⟨node, inner, rfl⟩ : ∃ node inner, e = .paren node inner := by
        cases e with
        | paren node inner => exact ⟨node, inner, rfl⟩
        | _ => cases wraps
      have isInner := recorded.inside member (List.mem_cons_of_mem _ inner.expr_mem_parts)
      obtain ⟨type, grown, -, final⟩ := recorded.final isInner
      refine iff_of_true ?_ nofun
      rw [recorded.resolved_bare member, Ir.Expr.bare, ← recorded.resolved_bare isInner, inferType,
        finalType, final]
      rfl
    | none =>
      rw [recorded.final_of_unnamed member named wraps, Option.some_inj, eq_comm,
        inferType_promoted_iff named wraps]
      · refine forall₂_congr fun inner copied => ?_
        have inside := (recorded.each _ member).inside e rfl inner (Ir.Expr.mem_of_copied copied)
        exact recorded.finalType_eq_iff inside
      · intro inner isInside
        exact recorded.final_typeOf ((recorded.each _ member).inside e rfl inner isInside)

/-- The type of a declared variable is promoted at the end if the variable grows by itself. -/
theorem final_declarator (recorded : state.Recorded declared known) {d : Ir.Declarator}
    (member : .declarator d ∈ known) {type : CType}
    (typed : state.types.find? d.node.id = some type) :
    state.resolved.find? d.node.id = some (type.promoted (state.growsAt known d.node.id)) := by
  obtain ⟨binding, first, carries, typed', bound⟩ := recorded.binds.declared _ member rfl
  change state.bindingOf? d.node.id = some binding at carries
  cases typed.symm.trans typed'
  rw [growsAt, carries, Option.elim_some]
  exact find?_resolved (recorded.binds.isSome_types member carries) carries bound

/-- Inference finds the type of a variable again from its initializer exactly if growth has not
overtaken a use there, or the variable grows by itself. -/
theorem declaration_iff (recorded : state.Recorded declared known) {source : Declarator}
    {d : Ir.Declarator} (member : .declarator d ∈ known)
    (initializes : state.Initializes declared source d)
    (plain : annotated? declared source = none) {init : Ir.Expr} (isInit : init ∈ d.init) :
    state.resolved.find? d.node.id =
        some ((state.finalType init.id).promoted (state.growsAt known d.node.id)) ↔
      (state.Overtaken known init.bare.id → state.growsAt known d.node.id = true) := by
  have known' := (recorded.each _ member).inits init isInit
  obtain ⟨-, -, typed⟩ := initializes.initialized init isInit
  rw [plain, Option.getD_none] at typed
  rw [recorded.final_declarator member typed, Option.some_inj]
  by_cases overtaken : state.Overtaken known init.bare.id
  · have differ := (not_congr (recorded.finalType_eq_iff known')).2 (not_not_intro overtaken)
    obtain ⟨grown, final⟩ := recorded.final_typeOf known'
    rw [final] at differ ⊢
    obtain ⟨rfl, element, capacity, fixed⟩ := CType.promoted_ne_iff.1 differ
    rw [fixed]
    cases state.growsAt known d.node.id <;> simp [overtaken, CType.promoted]
  · rw [(recorded.finalType_eq_iff known').2 overtaken]
    exact iff_of_true rfl fun absurd => (overtaken absurd).elim

/-- The variable of a loop over the elements of an array has their type at the end as well. -/
theorem loop_eq (recorded : state.Recorded declared known) {part : Part} (member : part ∈ known)
    {pair : Ir.Declarator × Ir.Expr} (isLoop : pair ∈ part.loop?) :
    state.resolved.find? pair.1.node.id =
      some ((elementType (state.finalType pair.2.id)).promoted
        (state.growsAt known pair.1.node.id)) := by
  obtain ⟨isDeclared, isRight, typed⟩ := (recorded.each _ member).loops pair isLoop
  obtain ⟨grown, final⟩ := recorded.final_typeOf isRight
  have same : elementType (state.finalType pair.2.id) = elementType (state.typeOf pair.2.id) := by
    rw [final]
    cases state.typeOf pair.2.id <;> rfl
  rw [same]
  exact recorded.final_declarator isDeclared typed

end Recorded

theorem forall₂_iff {α β : Type} {R P Q : α → β → Prop} {as : List α} {bs : List β}
    (related : List.Forall₂ R as bs) (each : ∀ a, ∀ b ∈ bs, R a b → (P a b ↔ Q a b)) :
    List.Forall₂ P as bs ↔ List.Forall₂ Q as bs := by
  induction related with
  | nil => simp
  | cons first rest ih =>
    rw [List.forall₂_cons, List.forall₂_cons, each _ _ List.mem_cons_self first,
      ih fun a b member => each a b (List.mem_cons_of_mem _ member)]

/-- Inference finds the types at the end again exactly if uses are timely. -/
theorem Recorded.fixpoint_iff (recorded : state.Recorded declared known)
    {sources : List Declarator} (pairs : state.Pairs declared sources known) :
    state.Fixpoint declared sources known ↔ state.Timely declared sources known := by
  have declarations : ∀ source, ∀ d ∈ Ir.declaratorsOf known,
      state.Initializes declared source d →
        ((annotated? declared source = none → ∀ init ∈ d.init, state.resolved.find? d.node.id =
            some ((state.finalType init.id).promoted (state.growsAt known d.node.id))) ↔
          (annotated? declared source = none → ∀ init ∈ d.init,
            state.Overtaken known init.bare.id → state.growsAt known d.node.id = true)) := by
    intro source d member initializes
    obtain ⟨part, isKnown, isDeclarator⟩ := List.mem_filterMap.1 member
    have isPart : Part.declarator d ∈ known := by
      cases part <;> cases isDeclarator
      exact isKnown
    exact forall_congr' fun plain => forall₂_congr fun init isInit =>
      recorded.declaration_iff isPart initializes plain isInit
  constructor
  · intro fixpoint
    exact
      { expressions := fun e member =>
          (recorded.inferredAgain_iff member).1 (fixpoint.expressions e member)
        declarations := (forall₂_iff pairs declarations).1 fixpoint.declarations }
  · intro timely
    exact
      { expressions := fun e member =>
          (recorded.inferredAgain_iff member).2 (timely.expressions e member)
        declarations := (forall₂_iff pairs declarations).2 timely.declarations
        loops := fun part member pair isLoop => recorded.loop_eq member isLoop }

end State

/-- **Inference on the final types.** In a script that is lowered, inference on the types at the end
finds them again exactly if no use of a variable that growth has overtaken stands where its type is
taken over. The variables of the script and those of the module stand for one another. -/
theorem resolved_fixpoint_iff {script : Program} {lowered : Lowered}
    (run : lowerProgram script = .ok lowered) :
    ∃ state : State,
      lowerItems script (Declared.ofProgram script) {} = .ok (lowered.module, state) ∧
        lowered.types = state.resolved ∧
        List.Forall₂ (fun (source : Declarator) (d : Ir.Declarator) => source.name = some d.name)
          (declaredIn script) (Ir.declaratorsOf lowered.module.parts) ∧
        (state.Fixpoint (Declared.ofProgram script) (declaredIn script) lowered.module.parts ↔
          state.Timely (Declared.ofProgram script) (declaredIn script) lowered.module.parts) := by
  obtain ⟨module, state, items, rfl⟩ := lowerProgram_ok run
  have pairs := pairs_declaredIn items
  exact ⟨state, items, rfl, pairs.imp fun _ _ initializes => initializes.named,
    (recorded_lowerItems items).fixpoint_iff pairs⟩

/-- A script whose variable `b` takes over the type of the array `a` after it has grown:
`let a = [1]; a.push(2); let b = a;`. -/
def timelyUse : Program :=
  [.statement (.declaration ⟨0, 12⟩ [⟨⟨4, 11⟩, some "a", none,
      some (.array ⟨8, 11⟩ [some (.number ⟨9, 10⟩ (some ⟨1, 0⟩) "1")])⟩]),
    .statement (.expression ⟨13, 23⟩ (.call ⟨13, 22⟩
      (.member ⟨13, 19⟩ (.ident ⟨13, 14⟩ "a") "push")
      [some (.number ⟨20, 21⟩ (some ⟨2, 0⟩) "2")])),
    .statement (.declaration ⟨24, 34⟩ [⟨⟨28, 33⟩, some "b", none,
      some (.ident ⟨32, 33⟩ "a")⟩])]

theorem resolved_fixpoint_timelyUse : ∃ lowered, lowerProgram timelyUse = .ok lowered ∧
    ∃ state : State,
      lowerItems timelyUse (Declared.ofProgram timelyUse) {} = .ok (lowered.module, state) ∧
        lowered.types = state.resolved ∧
        state.Fixpoint (Declared.ofProgram timelyUse) (declaredIn timelyUse)
          lowered.module.parts ∧
        state.Timely (Declared.ofProgram timelyUse) (declaredIn timelyUse)
          lowered.module.parts := by
  have again : (lowerItems timelyUse (Declared.ofProgram timelyUse) {}).toOption.all
      (fun result => result.2.Fixpoint (Declared.ofProgram timelyUse) (declaredIn timelyUse)
        result.1.parts) = true := by
    decide +kernel
  have accepted : (lowerProgram timelyUse).toOption.isSome = true := by decide +kernel
  cases run : lowerProgram timelyUse with
  | error cause =>
    rw [run] at accepted
    cases accepted
  | ok lowered =>
    obtain ⟨state, items, types, -, iff⟩ := resolved_fixpoint_iff run
    rw [items] at again
    have fixpoint := of_decide_eq_true again
    exact ⟨lowered, rfl, state, items, types, fixpoint, iff.1 fixpoint⟩

/-- The same script with the call at its end: `let a = [1]; let b = a; a.push(2);`. -/
def overtakenUse : Program :=
  [.statement (.declaration ⟨0, 12⟩ [⟨⟨4, 11⟩, some "a", none,
      some (.array ⟨8, 11⟩ [some (.number ⟨9, 10⟩ (some ⟨1, 0⟩) "1")])⟩]),
    .statement (.declaration ⟨13, 23⟩ [⟨⟨17, 22⟩, some "b", none,
      some (.ident ⟨21, 22⟩ "a")⟩]),
    .statement (.expression ⟨24, 34⟩ (.call ⟨24, 33⟩
      (.member ⟨24, 30⟩ (.ident ⟨24, 25⟩ "a") "push")
      [some (.number ⟨31, 32⟩ (some ⟨2, 0⟩) "2")]))]

/-- The variable `b` keeps the type of the fixed array, though `a` is on the heap. -/
theorem overtakenUse_not_fixpoint : ∃ lowered, lowerProgram overtakenUse = .ok lowered ∧
    ∃ state : State,
      lowerItems overtakenUse (Declared.ofProgram overtakenUse) {} = .ok (lowered.module, state) ∧
        lowered.types = state.resolved ∧
        ¬ state.Fixpoint (Declared.ofProgram overtakenUse) (declaredIn overtakenUse)
          lowered.module.parts := by
  have stale : (lowerItems overtakenUse (Declared.ofProgram overtakenUse) {}).toOption.any
      (fun result => ¬ result.2.Fixpoint (Declared.ofProgram overtakenUse)
        (declaredIn overtakenUse) result.1.parts) = true := by
    decide +kernel
  have accepted : (lowerProgram overtakenUse).toOption.isSome = true := by decide +kernel
  cases run : lowerProgram overtakenUse with
  | error cause =>
    rw [run] at accepted
    cases accepted
  | ok lowered =>
    obtain ⟨module, state, items, rfl⟩ := lowerProgram_ok run
    rw [items] at stale
    exact ⟨_, rfl, state, items, rfl, of_decide_eq_true stale⟩

end Lowering
end ScriptToC
