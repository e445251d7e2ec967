import ScriptToC.Proofs.Lowering.Records

/-!
# Recorded and final types

The type that a node has at the end is the one that was recorded for it, except that the array in a
variable may have moved to the heap (`State.Recorded.final`). Looking all types up in the bindings
is the same as promoting the recorded ones in place (`lowered_types_promoted`). So the recorded and
the final type differ exactly for the uses of a variable whose array is fixed where it is declared
and grows in some call, but in none that came before the use: the growth has overtaken such a use
(`State.Recorded.final_ne_iff`).
-/

set_option autoImplicit false

namespace ScriptToC

theorem CType.promoted_eq_unknown {type : CType} {grown : Bool} :
    type.promoted grown = .unknown ↔ type = .unknown := by
  cases type <;> simp [promoted]

/-- A type changes by being promoted exactly if it is a fixed array that grows. -/
theorem CType.promoted_ne_iff {type : CType} {grown : Bool} :
    type.promoted grown ≠ type ↔
      grown = true ∧ ∃ element capacity, type = .fixedArray element capacity := by
  cases type with
  | array element capacity dynamic => cases dynamic <;> cases grown <;> simp [promoted]
  | _ => simp [promoted]

namespace Ir

/-- An expression without the parentheses around it. -/
def Expr.bare : Expr → Expr
  | .paren _ inner => inner.bare
  | e => e

theorem Expr.bare_mem_parts (e : Expr) : .expr e.bare ∈ e.parts := by
  induction e using bare.induct with
  | case1 node inner ih => exact List.mem_cons_of_mem _ ih
  | case2 e other => rw [bare.eq_2 e other]; exact e.expr_mem_parts

/-- There are no parentheses left. -/
theorem Expr.wrapped?_bare (e : Expr) : (Part.expr e.bare).wrapped? = none := by
  induction e using bare.induct with
  | case1 node inner ih => exact ih
  | case2 e other =>
    rw [bare.eq_2 e other]
    cases e with
    | paren node inner => exact absurd rfl (other node inner)
    | _ => rfl

end Ir

namespace Lowering

open Ir (Part)

variable {declared : Declared} {state : State} {known : List Part} {e : Ir.Expr}

namespace State

/-- A node that carries no binding keeps its type. -/
theorem find?_resolved_of_none {id : NodeId} (uncarried : state.bindingOf? id = none) :
    state.resolved.find? id = state.types.find? id := by
  rw [resolved, TypeTable.find?_map, uncarried]
  exact Option.map_id'

/-- The recorded types, with the arrays promoted in place at the nodes that carry a binding which
some call grows. -/
def promotedInPlace (state : State) (parts : List Part) : TypeTable :=
  state.types.map fun id type =>
    type.promoted ((state.bindingOf? id).any fun binding => state.isGrown parts binding)

/-- Growth has overtaken a use of a variable: its array is fixed where it is declared, and some call
grows it, but none before the use. -/
def Overtaken (state : State) (parts : List Part) (id : NodeId) : Prop :=
  ∃ declaration ∈ parts, declaration.declares = true ∧ ∃ binding element capacity,
    state.bindingOf? declaration.id = some binding ∧ state.bindingOf? id = some binding ∧
      state.types.find? declaration.id = some (.fixedArray element capacity) ∧
      state.isGrown parts binding = true ∧ state.isGrown (earlier parts id) binding = false

/-- What grows among the earlier parts grows. -/
theorem isGrown_of_earlier {id : NodeId} {binding : BindingId}
    (grows : state.isGrown (earlier known id) binding = true) :
    state.isGrown known binding = true := by
  obtain ⟨part, member, rest⟩ := isGrown_iff.1 grows
  exact isGrown_iff.2 ⟨part, List.mem_of_mem_filter member, rest⟩

namespace Recorded

/-- What stands in an expression is known if the expression is. -/
theorem inside (recorded : state.Recorded declared known) (member : .expr e ∈ known)
    {inner : Ir.Expr} (isInside : .expr inner ∈ e.parts) : .expr inner ∈ known := by
  have eq : e.parts = .expr e :: e.parts.tail := by cases e <;> rfl
  rw [eq] at isInside
  rcases List.mem_cons.1 isInside with same | isInside
  · rw [same]
    exact member
  · exact (recorded.each _ member).inside e rfl inner isInside

/-- An expression carries the binding, and has the type, that it has without parentheses. -/
theorem bare (recorded : state.Recorded declared known) (member : .expr e ∈ known) :
    state.bindingOf? e.id = state.bindingOf? e.bare.id ∧
      state.types.find? e.id = state.types.find? e.bare.id := by
  induction e using Ir.Expr.bare.induct with
  | case1 node inner ih =>
    have isInner := recorded.inside member (List.mem_cons_of_mem _ inner.expr_mem_parts)
    obtain ⟨carries, typed⟩ := ih isInner
    have wraps := (recorded.binds.wraps _ member inner.id rfl).2
    have inferred := (recorded.each _ member).inferred _ rfl rfl
    refine ⟨wraps.trans carries, inferred.trans ?_⟩
    obtain ⟨type, isTyped⟩ :=
      Option.isSome_iff_exists.1 (recorded.binds.makes.typed _ isInner rfl)
    rw [Ir.Expr.bare, ← typed, inferType, typeOf]
    change state.types.find? inner.id = some type at isTyped
    rw [isTyped, Option.getD_some]
  | case2 e other => rw [Ir.Expr.bare.eq_2 e other]; exact ⟨rfl, rfl⟩

/-- At the end as well, an expression has the type that it has without parentheses. -/
theorem resolved_bare (recorded : state.Recorded declared known) (member : .expr e ∈ known) :
    state.resolved.find? e.id = state.resolved.find? e.bare.id := by
  obtain ⟨carries, typed⟩ := recorded.bare member
  rw [resolved, TypeTable.find?_map, TypeTable.find?_map, carries, typed]

/-- The type of a use is that of the declaration, as promoted so far, and at the end it is promoted
by all calls. -/
theorem final_use (recorded : state.Recorded declared known) (member : .expr e ∈ known)
    {binding : BindingId} (carries : state.bindingOf? e.id = some binding) :
    ∃ declaration ∈ known, declaration.declares = true ∧
      state.bindingOf? declaration.id = some binding ∧ ∃ first,
        state.types.find? declaration.id = some first ∧
        state.types.find? e.id =
          some (first.promoted (state.isGrown (earlier known e.bare.id) binding)) ∧
        state.resolved.find? e.id = some (first.promoted (state.isGrown known binding)) := by
  have binds := recorded.binds
  obtain ⟨same, typed⟩ := recorded.bare member
  have isBare := recorded.inside member e.bare_mem_parts
  have carries' := same.symm.trans carries
  -- Without its parentheses, what carries a binding is a name.
  have named : (Part.expr e.bare).name?.isSome = true := by
    rw [Option.isSome_iff_ne_none]
    intro unnamed
    have uncarried := binds.untied _ isBare unnamed e.wrapped?_bare
    cases uncarried.symm.trans carries'
  obtain ⟨_, isTyped, declaration, isKnown, declares, declared, first, isFirst, rfl⟩ :=
    (recorded.each _ isBare).used e.bare rfl named binding carries'
  obtain ⟨_, _, carried, isFirst', bound⟩ := binds.declared declaration isKnown declares
  cases declared.symm.trans carried
  cases isFirst.symm.trans isFirst'
  refine ⟨declaration, isKnown, declares, declared, first, isFirst, typed.trans isTyped, ?_⟩
  exact find?_resolved (binds.isSome_types member carries) carries bound

/-- A part that carries a binding has the recorded type at the end, promoted if a call grows the
binding. -/
theorem final_carrier (recorded : state.Recorded declared known) {part : Part}
    (member : part ∈ known) {binding : BindingId}
    (carries : state.bindingOf? part.id = some binding) :
    state.resolved.find? part.id =
      (state.types.find? part.id).map (·.promoted (state.isGrown known binding)) := by
  have binds := recorded.binds
  have ofDeclaration (declares : part.declares = true) : state.resolved.find? part.id =
      (state.types.find? part.id).map (·.promoted (state.isGrown known binding)) := by
    obtain ⟨_, type, carries', typed, bound⟩ := binds.declared part member declares
    cases carries.symm.trans carries'
    rw [find?_resolved (binds.isSome_types member carries) carries bound, typed, Option.map_some]
  cases part with
  | param => exact ofDeclaration rfl
  | declarator => exact ofDeclaration rfl
  | expr e =>
    obtain ⟨_, -, -, -, first, -, typed, final⟩ := recorded.final_use member carries
    change state.resolved.find? e.id = (state.types.find? e.id).map _
    rw [final, typed, Option.map_some, CType.promoted_promoted]
    cases before : state.isGrown (earlier known e.bare.id) binding with
    | false => rfl
    | true => rw [isGrown_of_earlier before, Bool.or_true]
  | function f => cases (binds.untied _ member rfl rfl).symm.trans carries
  | stmt s => cases (binds.untied _ member rfl rfl).symm.trans carries

/-- Looking all types up in the bindings gives the table that promoting the recorded types in place
gives. -/
theorem resolved_eq_inPlace (recorded : state.Recorded declared known) (id : NodeId) :
    state.resolved.find? id = (state.promotedInPlace known).find? id := by
  rw [promotedInPlace, TypeTable.find?_map]
  cases carries : state.bindingOf? id with
  | none =>
    simp only [find?_resolved_of_none carries, Option.any_none, CType.promoted_false]
    exact Option.map_id'.symm
  | some binding =>
    -- A node that carries a binding was taken, and so it is that of a part.
    have taken : id < state.next := by
      by_contra untaken
      cases (recorded.binds.sound.unused (Nat.not_lt.1 untaken)).symm.trans carries
    obtain ⟨part, member, rfl⟩ := recorded.binds.makes.complete (Nat.zero_le id) taken
    rw [Option.any_some]
    exact recorded.final_carrier member carries

/-- The type of an expression at the end is the recorded one, possibly promoted. -/
theorem final (recorded : state.Recorded declared known) (member : .expr e ∈ known) :
    ∃ type grown, state.types.find? e.id = some type ∧
      state.resolved.find? e.id = some (type.promoted grown) := by
  have isSome : (state.types.find? e.id).isSome = true := recorded.binds.makes.typed _ member rfl
  obtain ⟨type, typed⟩ := Option.isSome_iff_exists.1 isSome
  refine ⟨type, (state.bindingOf? e.id).any (state.isGrown known), typed, ?_⟩
  rw [recorded.resolved_eq_inPlace, promotedInPlace, TypeTable.find?_map, typed, Option.map_some]

/-- A node has another type at the end than the recorded one exactly if it is a use, in parentheses
or not, that growth has overtaken. -/
theorem final_ne_iff (recorded : state.Recorded declared known) (member : .expr e ∈ known) :
    state.resolved.find? e.id ≠ state.types.find? e.id ↔ state.Overtaken known e.bare.id := by
  obtain ⟨same, -⟩ := recorded.bare member
  cases carries : state.bindingOf? e.id with
  | none =>
    rw [find?_resolved_of_none carries]
    refine ⟨fun differ => absurd rfl differ, ?_⟩
    rintro ⟨_, -, -, _, _, _, -, carries', -⟩
    rw [same, carries'] at carries
    cases carries
  | some binding =>
    obtain ⟨declaration, isKnown, declares, declared, first, isFirst, typed, final⟩ :=
      recorded.final_use member carries
    rw [final, typed, ne_eq, Option.some_inj]
    constructor
    · intro differ
      cases before : state.isGrown (earlier known e.bare.id) binding with
      | true =>
        rw [before, isGrown_of_earlier before] at differ
        exact absurd rfl differ
      | false =>
        rw [before, CType.promoted_false] at differ
        obtain ⟨grows, element, capacity, rfl⟩ := CType.promoted_ne_iff.1 differ
        exact ⟨declaration, isKnown, declares, binding, element, capacity, declared,
          same.symm.trans carries, isFirst, grows, before⟩
    · rintro ⟨other, isKnown', declares', _, element, capacity, declared', carries', isFirst',
        grows, before⟩
      cases (same.symm.trans carries).symm.trans carries'
      obtain rfl := recorded.binds.declaration_unique isKnown isKnown' declares declares'
        (declared.trans declared'.symm)
      cases isFirst.symm.trans isFirst'
      rw [grows, before, CType.promoted_false]
      exact CType.promoted_ne_iff.2 ⟨rfl, element, capacity, rfl⟩

end Recorded
end State

/-- **Promotion in place.** The table of types that lowering gives is the one that was recorded,
with the arrays promoted in place at the nodes that carry a binding which some call grows. -/
theorem lowered_types_promoted {script : Source.Program} {lowered : Lowered}
    (run : lowerProgram script = .ok lowered) :
    ∃ state : State,
      lowerItems script (Declared.ofProgram script) {} = .ok (lowered.module, state) ∧
        ∀ id, lowered.types.find? id = (state.promotedInPlace lowered.module.parts).find? id := by
  obtain ⟨module, state, items, rfl⟩ := lowerProgram_ok run
  exact ⟨state, items, (recorded_lowerItems items).resolved_eq_inPlace⟩

end Lowering
end ScriptToC
