import ScriptToC.Emit.Expr
import ScriptToC.Proofs.Lowering.Final

/-!
# Lowering and emission agree on types

Types are inferred twice: when a script is lowered, and again when C is emitted, from the shape of
an expression where the resolved types say nothing. The second inference knows less: nothing of
structures, of calls or of texts that are added. But it is asked only where the first found nothing,
and there it finds nothing either (`types_agree`), so every expression has one type.
-/

set_option autoImplicit false

namespace ScriptToC

open Ir (Part)

/-- A resolved type is taken, if nothing else is found where it says nothing. -/
theorem Emit.resolved_eq {types : Types} {node : Node} {type otherwise : CType}
    (found : types node.id = some type) (unknown : type = .unknown → otherwise = .unknown) :
    Emit.resolved types node otherwise = type := by
  rw [Emit.resolved, found]
  cases type with
  | unknown => exact unknown rfl
  | _ => rfl

namespace Lowering

open Source

variable {declared : Declared} {state : State} {known : List Part} {e : Ir.Expr}

namespace State.Recorded

/-- Emission takes the resolved type of an expression that is no name, if its shape says nothing
where lowering found nothing. -/
theorem agrees (recorded : state.Recorded declared known) (member : .expr e ∈ known)
    (unnamed : (Part.expr e).name? = none) {otherwise : CType}
    (shape : Emit.typeOf state.resolved.find? e =
      Emit.resolved state.resolved.find? e.node otherwise)
    (unknown : inferType declared state.typeOf e = .unknown → otherwise = .unknown) :
    state.resolved.find? e.id = some (Emit.typeOf state.resolved.find? e) := by
  obtain ⟨type, grown, typed, final⟩ := recorded.final member
  have inferred := (recorded.each _ member).inferred e rfl unnamed
  cases typed.symm.trans inferred
  rw [shape, Emit.resolved_eq final, final]
  intro isUnknown
  exact unknown (CType.promoted_eq_unknown.1 isUnknown)

/-- If emission agrees on the type of an expression inside another, it finds the one that was
recorded, possibly promoted. -/
theorem exists_promoted (recorded : state.Recorded declared known) (member : .expr e ∈ known)
    (inner : Ir.Expr) (isInside : .expr inner ∈ e.parts)
    (agrees : .expr inner ∈ known →
      state.resolved.find? inner.id = some (Emit.typeOf state.resolved.find? inner)) :
    ∃ grown,
      Emit.typeOf state.resolved.find? inner = (state.typeOf inner.id).promoted grown := by
  have isKnown := recorded.inside member isInside
  obtain ⟨type, grown, typed, final⟩ := recorded.final isKnown
  refine ⟨grown, ?_⟩
  rw [State.typeOf, typed, Option.getD_some]
  exact Option.some_inj.1 ((agrees isKnown).symm.trans final)

/-- Emission finds for an expression the type that it has at the end. -/
theorem typeOf_eq (recorded : state.Recorded declared known) : ∀ e : Ir.Expr, .expr e ∈ known →
    state.resolved.find? e.id = some (Emit.typeOf state.resolved.find? e)
  | .ident .., member => by
      obtain ⟨type, grown, -, final⟩ := recorded.final member
      exact final.trans (congrArg some (Emit.resolved_eq final fun _ => rfl).symm)
  | .number .., member | .string .., member | .bool .., member | .update .., member
  | .logical .., member | .array .., member | .object .., member =>
      recorded.agrees member rfl rfl nofun
  | .null _, member | .call .., member => recorded.agrees member rfl rfl fun _ => rfl
  | .unary _ op _, member => by
      cases op <;> exact recorded.agrees member rfl rfl (by rintro ⟨⟩)
  | .binary _ op _ _, member => by
      refine recorded.agrees member rfl rfl ?_
      rw [inferType]
      split
      · rintro ⟨⟩
      · split <;> rintro ⟨⟩
  -- A type that is taken over says nothing if the type inside says nothing.
  | .paren _ inner, member => by
      obtain ⟨grown, eq⟩ := recorded.exists_promoted member inner
        (by simp [Ir.Expr.parts, Ir.Expr.expr_mem_parts]) (recorded.typeOf_eq inner)
      exact recorded.agrees member rfl rfl fun unknown => by
        rw [eq, CType.promoted_eq_unknown]
        exact unknown
  | .assign _ _ _ value, member => by
      obtain ⟨grown, eq⟩ := recorded.exists_promoted member value
        (by simp [Ir.Expr.parts, Ir.Expr.expr_mem_parts]) (recorded.typeOf_eq value)
      exact recorded.agrees member rfl rfl fun unknown => by
        rw [eq, CType.promoted_eq_unknown]
        exact unknown
  | .conditional _ _ yes _, member => by
      obtain ⟨grown, eq⟩ := recorded.exists_promoted member yes
        (by simp [Ir.Expr.parts, Ir.Expr.expr_mem_parts]) (recorded.typeOf_eq yes)
      exact recorded.agrees member rfl rfl fun unknown => by
        rw [eq, CType.promoted_eq_unknown]
        exact unknown
  -- What is found in an object does not depend on where its elements are.
  | .member _ object property, member => by
      obtain ⟨grown, eq⟩ := recorded.exists_promoted member object
        (by simp [Ir.Expr.parts, Ir.Expr.expr_mem_parts]) (recorded.typeOf_eq object)
      refine recorded.agrees member rfl rfl ?_
      rw [eq, inferType]
      cases state.typeOf object.id with
      | struct name => exact fun _ => rfl
      | _ => exact id
  | .index _ object _, member => by
      obtain ⟨grown, eq⟩ := recorded.exists_promoted member object
        (by simp [Ir.Expr.parts, Ir.Expr.expr_mem_parts]) (recorded.typeOf_eq object)
      refine recorded.agrees member rfl rfl ?_
      rw [eq, inferType]
      cases state.typeOf object.id with
      | struct name => exact fun _ => rfl
      | _ => exact id

end State.Recorded

/-- **The two inferences agree.** In a script that is lowered, emission finds for every expression
the type that the resolved table has for it. -/
theorem types_agree {script : Program} {lowered : Lowered}
    (run : lowerProgram script = .ok lowered) :
    ∀ e, .expr e ∈ lowered.module.parts →
      lowered.types.find? e.id = some (Emit.typeOf lowered.types.find? e) := by
  obtain ⟨module, state, items, rfl⟩ := lowerProgram_ok run
  exact (recorded_lowerItems items).typeOf_eq

/-- A script in which some types are unknown, also where types are taken over:
`interface P { x: number }`, `function f(p: P) { (p.y); p.x; [p.y]; }` and
`let a = [true]; a.length; a.push(true);`. -/
def halfTyped : Program :=
  [.interface "P" [.property (.name "x") (some .number)],
    .function ⟨⟨26, 67⟩, some "f", [⟨⟨37, 41⟩, some "p", some (.named (.name "P") [])⟩], false,
      false, none, some [
        .expression ⟨45, 51⟩ (.paren ⟨45, 50⟩ (.member ⟨46, 49⟩ (.ident ⟨46, 47⟩ "p") "y")),
        .expression ⟨52, 56⟩ (.member ⟨52, 55⟩ (.ident ⟨52, 53⟩ "p") "x"),
        .expression ⟨57, 63⟩ (.array ⟨57, 62⟩
          [some (.member ⟨58, 61⟩ (.ident ⟨58, 59⟩ "p") "y")])]⟩,
    .statement (.declaration ⟨68, 80⟩ [⟨⟨72, 79⟩, some "a", none,
      some (.array ⟨76, 79⟩ [some (.bool ⟨77, 78⟩ true)])⟩]),
    .statement (.expression ⟨81, 90⟩ (.member ⟨81, 89⟩ (.ident ⟨81, 82⟩ "a") "length")),
    .statement (.expression ⟨91, 101⟩ (.call ⟨91, 100⟩
      (.member ⟨91, 97⟩ (.ident ⟨91, 92⟩ "a") "push") [some (.bool ⟨98, 99⟩ true)]))]

/-- The types that emission finds for the expressions of a script. -/
def Lowered.exprTypes (lowered : Lowered) : List CType :=
  lowered.module.parts.filterMap fun
    | .expr e => some (Emit.typeOf lowered.types.find? e)
    | _ => none

theorem types_agree_halfTyped : ∃ lowered, lowerProgram halfTyped = .ok lowered ∧
    lowered.exprTypes =
      [.unknown, .unknown, .struct "P", .number, .struct "P", .fixedArray .unknown 1, .unknown,
        .struct "P", .fixedArray .boolean 1, .boolean, .number, .array .boolean 1 true, .number,
        .unknown, .array .boolean 1 true, .boolean] ∧
    ∀ e, .expr e ∈ lowered.module.parts →
      lowered.types.find? e.id = some (Emit.typeOf lowered.types.find? e) := by
  have accepted : (lowerProgram halfTyped).toOption.any (fun lowered =>
      lowered.exprTypes =
        [.unknown, .unknown, .struct "P", .number, .struct "P", .fixedArray .unknown 1, .unknown,
          .struct "P", .fixedArray .boolean 1, .boolean, .number, .array .boolean 1 true, .number,
          .unknown, .array .boolean 1 true, .boolean]) = true := by
    decide +kernel
  cases run : lowerProgram halfTyped with
  | error cause =>
    rw [run] at accepted
    cases accepted
  | ok lowered =>
    rw [run] at accepted
    exact ⟨lowered, rfl, of_decide_eq_true accepted, types_agree run⟩

end Lowering
end ScriptToC
