import ScriptToC.Proofs.CCode.Sources
import ScriptToC.Proofs.Errors.Statements

/-!
# How the emission of a module ends

The text of a module is found, or its emission fails at a node of the module. It fails neither for
want of a scope nor for want of a template, as every object of a file is sound
(`moduleText_ok_or_liesIn`).
-/

set_option autoImplicit false

namespace ScriptToC.Emit

open Ir

variable {σ : Setting} {w : Workspace}

/-- A file that was emitted has a text. -/
theorem render_program_ok (program : CProgram) : ∃ text w',
    render program.toValue σ w = (.ok text, w') := by
  obtain ⟨text, rendered, -⟩ := render_of_prints (prints_program program)
  refine ⟨text, w, ?_⟩
  rw [render, rendered]
  rfl

theorem located_moduleText {scopes : List ScopeId} (module : Module) :
    Located module.spans scopes (moduleText module) := by
  intro σ w wf exist cause failed
  rw [moduleText, run_bind] at failed
  split at failed
  next program w' eq =>
    obtain ⟨text, _, run⟩ := @render_program_ok σ w' program
    rw [run] at failed
    cases failed
  next _ w' eq =>
    cases failed
    exact located_program module σ w wf exist cause (congrArg Prod.fst eq)

/-- **How emission ends.** From scopes that emission can lead to, the emission of a module gives a
text or fails at a node of the module, on a type that is not known or a construct that has no C
form. Every file that it can build is sound: its objects have the templates of their sources and can
be rendered, at every depth and whatever texts they hold. -/
theorem moduleText_ok_or_liesIn (σ : Setting) (module : Module) {w : Workspace}
    (reachable : w.scopes.Reachable) :
    ((∃ text, (moduleText module σ w).1 = .ok text) ∨
      ∃ cause, (moduleText module σ w).1 = .error cause ∧ cause.LiesIn module.spans) ∧
    ∀ program : CProgram, program.toValue.Sound := by
  refine ⟨?_, sound_program⟩
  cases result : (moduleText module σ w).1 with
  | ok text => exact .inl ⟨text, rfl⟩
  | error cause =>
    right
    refine ⟨cause, rfl, ?_⟩
    have none : ∀ id ∈ ([] : List ScopeId), id < w.scopes.size := by
      intro id member
      cases member
    exact located_moduleText module σ w reachable.wellFormed none cause result

/-- A setting in which only one identifier has a type. -/
def oneArray : Setting :=
  ⟨fun id => if id = 3 then some (.dynamicArray .number) else none, "ts2c"⟩

/-- A loop over `rows` in a clause of a `switch`, and in it a loop over `cols`. -/
def nestedLoops : Module :=
  ⟨[], [.switchOn ⟨0, ⟨0, 99⟩⟩ (.number ⟨1, ⟨8, 9⟩⟩ "1") [⟨none, [
    .forOf ⟨2, ⟨20, 90⟩⟩ (.target (.ident ⟨4, ⟨25, 28⟩⟩ "row")) (.ident ⟨3, ⟨32, 36⟩⟩ "rows")
      (.block ⟨5, ⟨38, 90⟩⟩ [.forIn ⟨6, ⟨40, 88⟩⟩ (.target (.ident ⟨7, ⟨45, 48⟩⟩ "col"))
        (.ident ⟨8, ⟨52, 56⟩⟩ "cols") ⟨some ⟨9, ⟨58, 88⟩⟩, []⟩])]⟩]]⟩

/-- The type of `cols` is not known, three scopes inside the main program. -/
theorem moduleText_ok_or_liesIn_nestedLoops :
    ({} : Workspace).scopes.Reachable ∧
      (moduleText nestedLoops oneArray {}).1 = .error (.missingType ⟨52, 56⟩ .iterated) ∧
      (((∃ text, (moduleText nestedLoops oneArray {}).1 = .ok text) ∨
          ∃ cause, (moduleText nestedLoops oneArray {}).1 = .error cause ∧
            cause.LiesIn nestedLoops.spans) ∧
        ∀ program : CProgram, program.toValue.Sound) :=
  ⟨.empty, by decide +kernel, moduleText_ok_or_liesIn oneArray nestedLoops .empty⟩

end ScriptToC.Emit
