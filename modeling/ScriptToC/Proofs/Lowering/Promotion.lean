import Mathlib.Data.List.Nodup
import ScriptToC.Proofs.Lowering.Resolution

/-!
# Growing arrays

An array that grows somewhere is on the heap everywhere: at its declaration, and wherever its
variable is used, before the place where it grows or after it. Where it grows is only found out
along the way, and the types that were recorded before are not changed then; they are looked up in
the bindings at the end (`State.resolved`). The statement on whole scripts
(`growth_reaches_every_use`) follows from what is known of the bindings of all parts
(`State.Binds`).
-/

set_option autoImplicit false

namespace ScriptToC.Lowering

open Source
open Ir (Part)

variable {before after : State} {parts : List Part} {part other : Part} {binding : BindingId}

namespace State

/-- A part that carries a binding has a type. -/
theorem Binds.isSome_types (binds : before.Binds parts after) (member : part ∈ parts)
    (carries : after.bindingOf? part.id = some binding) :
    (after.types.find? part.id).isSome = true := by
  cases part with
  | param p =>
    obtain ⟨_, _, -, typed, -⟩ := binds.declared _ member rfl
    rw [typed]
    rfl
  | declarator declarator => exact binds.makes.typed _ member rfl
  | expr e => exact binds.makes.typed _ member rfl
  | function f =>
    rw [binds.untied _ member rfl rfl] at carries
    cases carries
  | stmt s =>
    rw [binds.untied _ member rfl rfl] at carries
    cases carries

/-- Each binding that is new has a declaration. -/
theorem Binds.exists_declaration (binds : before.Binds parts after)
    (isNew : before.bindings.size ≤ binding) (small : binding < after.bindings.size) :
    ∃ part ∈ parts, part.declares = true ∧ after.bindingOf? part.id = some binding := by
  have inRange : binding ∈ List.range' before.bindings.size
      (after.bindings.size - before.bindings.size) := by
    rw [List.mem_range'_1, Nat.add_sub_cancel' binds.more]
    exact ⟨isNew, small⟩
  have among : some binding ∈ after.declaredBindings parts :=
    binds.numbered.mem_iff.2 (List.mem_map_of_mem inRange)
  obtain ⟨part, member, carries⟩ := List.mem_map.1 among
  obtain ⟨member, declares⟩ := List.mem_filter.1 member
  exact ⟨part, member, declares, carries⟩

/-- Different declarations have different bindings. -/
theorem Binds.declaration_unique (binds : before.Binds parts after) (member : part ∈ parts)
    (member' : other ∈ parts) (declares : part.declares = true) (declares' : other.declares = true)
    (same : after.bindingOf? part.id = after.bindingOf? other.id) : part = other := by
  have distinct : (after.declaredBindings parts).Nodup :=
    binds.numbered.nodup_iff.2 (List.Nodup.map (fun _ _ => Option.some.inj) List.nodup_range')
  exact List.inj_on_of_nodup_map distinct (List.mem_filter.2 ⟨member, declares⟩)
    (List.mem_filter.2 ⟨member', declares'⟩) same

end State

/-- **Growth reaches every use.** In a script that is lowered, names are tied to variables as
`resolves_lowerItems` says, parentheses to what the expression inside is tied to, and each declared
variable has a binding of its own. In the end every part that carries the binding has one and the
same type: the one that was recorded at the declaration, where an array is on the heap if it was so
at the declaration or if some call of `push` or `pop` in the script grows the array of this binding.
Every part that carries a binding carries that of a declaration, and all others keep the type that
was recorded for them. -/
theorem growth_reaches_every_use {script : Program} {lowered : Lowered}
    (run : lowerProgram script = .ok lowered) :
    ∃ state : State,
      lowerItems script (Declared.ofProgram script) {} = .ok (lowered.module, state) ∧
        (state.ties (lowered.module.functions.flatMap Ir.Function.parts) = functionTies 0 script ∧
          state.ties (Ir.rowParts lowered.module.topLevel) = mainTies [] 0 script ∧
          ∀ part ∈ lowered.module.parts, part.variableName? = none →
            state.bindingOf? part.id = part.wrapped?.bind state.bindingOf?) ∧
        (∀ declaration ∈ lowered.module.parts, declaration.declares = true →
          ∃ binding type,
            state.bindingOf? declaration.id = some binding ∧
              state.types.find? declaration.id = some type ∧
              (∀ other ∈ lowered.module.parts, other.declares = true →
                state.bindingOf? other.id = some binding → other = declaration) ∧
              ∀ part ∈ lowered.module.parts, state.bindingOf? part.id = some binding →
                lowered.types.find? part.id =
                  some (type.promoted (state.isGrown lowered.module.parts binding))) ∧
        ∀ part ∈ lowered.module.parts,
          (∀ binding, state.bindingOf? part.id = some binding →
            ∃ declaration ∈ lowered.module.parts,
              declaration.declares = true ∧ state.bindingOf? declaration.id = some binding) ∧
          (state.bindingOf? part.id = none →
            lowered.types.find? part.id = state.types.find? part.id) := by
  obtain ⟨module, state, items, rfl⟩ := lowerProgram_ok run
  have resolves := resolves_lowerItems script rfl rfl items State.sound_empty
  have binds := resolves.binds
  refine ⟨state, items, ⟨resolves.inFunctions, resolves.inMain, ?_⟩, ?_, ?_⟩
  · intro part member unnamed
    exact binds.bindingOf?_of_unnamed member unnamed
  · intro declaration member declares
    obtain ⟨binding, type, carries, typed, bound⟩ := binds.declared declaration member declares
    refine ⟨binding, type, carries, typed, ?_, ?_⟩
    · intro other member' declares' carries'
      exact binds.declaration_unique member' member declares' declares (carries'.trans carries.symm)
    · intro part member' carries'
      exact State.find?_resolved (binds.isSome_types member' carries') carries' bound
  · intro part member
    constructor
    · intro binding carries
      exact binds.exists_declaration (Nat.zero_le _) (binds.sound.carried carries)
    · intro uncarried
      change state.resolved.find? part.id = state.types.find? part.id
      rw [State.resolved, TypeTable.find?_map, uncarried]
      exact Option.map_id'

/-- The types of the variables of a script, wherever they are declared or used. -/
def Lowered.variableTypes (lowered : Lowered) : List (String × Option CType) :=
  lowered.module.parts.filterMap fun part =>
    part.variableName?.map fun name => (name, lowered.types.find? part.id)

/-- A script whose array `a` grows, in parentheses, after it was used and shadowed by one that does
not grow, and a function whose parameter is on the heap from the start:
`let a = [true]; { let a = [false]; a; } ((a)).push(false); a;` and
`function f(b: boolean[]) { let c = b; }`. -/
def growingArray : Program :=
  [.statement (.declaration ⟨0, 15⟩ [⟨⟨4, 14⟩, some "a", none,
      some (.array ⟨8, 14⟩ [some (.bool ⟨9, 13⟩ true)])⟩]),
    .statement (.block ⟨16, 39⟩ [
      .declaration ⟨18, 34⟩ [⟨⟨22, 33⟩, some "a", none,
        some (.array ⟨26, 33⟩ [some (.bool ⟨27, 32⟩ false)])⟩],
      .expression ⟨35, 37⟩ (.ident ⟨35, 36⟩ "a")]),
    .statement (.expression ⟨40, 58⟩ (.call ⟨40, 57⟩
      (.member ⟨40, 50⟩ (.paren ⟨40, 45⟩ (.paren ⟨41, 44⟩ (.ident ⟨42, 43⟩ "a"))) "push")
      [some (.bool ⟨51, 56⟩ false)])),
    .statement (.expression ⟨59, 61⟩ (.ident ⟨59, 60⟩ "a")),
    .function ⟨⟨62, 101⟩, some "f", [⟨⟨73, 85⟩, some "b", some (.array .boolean)⟩], false, false,
      none, some [.declaration ⟨89, 99⟩ [⟨⟨93, 98⟩, some "c", none, some (.ident ⟨97, 98⟩ "b")⟩]]⟩]

/-- The outer `a` is on the heap from its declaration on, and the inner `a` is not. -/
theorem growth_reaches_every_use_shadowed : ∃ lowered,
    lowerProgram growingArray = .ok lowered ∧
      lowered.variableTypes =
        [("b", some (.dynamicArray .boolean)), ("c", some (.dynamicArray .boolean)),
          ("b", some (.dynamicArray .boolean)), ("a", some (.array .boolean 1 true)),
          ("a", some (.array .boolean 1 false)), ("a", some (.array .boolean 1 false)),
          ("a", some (.array .boolean 1 true)), ("a", some (.array .boolean 1 true))] ∧
      ∃ state : State,
        lowerItems growingArray (Declared.ofProgram growingArray) {} =
            .ok (lowered.module, state) ∧
          ∀ declaration ∈ lowered.module.parts, declaration.declares = true →
            ∃ binding type,
              state.bindingOf? declaration.id = some binding ∧
                state.types.find? declaration.id = some type ∧
                (∀ other ∈ lowered.module.parts, other.declares = true →
                  state.bindingOf? other.id = some binding → other = declaration) ∧
                ∀ part ∈ lowered.module.parts, state.bindingOf? part.id = some binding →
                  lowered.types.find? part.id =
                    some (type.promoted (state.isGrown lowered.module.parts binding)) := by
  have accepted : (lowerProgram growingArray).toOption.any (fun lowered =>
      lowered.variableTypes =
        [("b", some (.dynamicArray .boolean)), ("c", some (.dynamicArray .boolean)),
          ("b", some (.dynamicArray .boolean)), ("a", some (.array .boolean 1 true)),
          ("a", some (.array .boolean 1 false)), ("a", some (.array .boolean 1 false)),
          ("a", some (.array .boolean 1 true)), ("a", some (.array .boolean 1 true))]) = true := by
    decide +kernel
  cases run : lowerProgram growingArray with
  | error cause =>
    rw [run] at accepted
    cases accepted
  | ok lowered =>
    rw [run] at accepted
    obtain ⟨state, items, -, declarations, -⟩ := growth_reaches_every_use run
    exact ⟨lowered, rfl, of_decide_eq_true accepted, state, items, declarations⟩

end ScriptToC.Lowering
