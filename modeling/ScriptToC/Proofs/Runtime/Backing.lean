import ScriptToC.Proofs.Hoisting.Declarations
import ScriptToC.Proofs.Runtime.Shown

/-!
# When the runtime backs the operations

Whether the code of a body creates, grows or reads an array or a dictionary is decided expression by
expression, from the types of the parts. Which runtime a file defines is decided from the types of
the variables that the file declares and of the signatures of its functions. The two agree exactly
if an operation on arrays is called only where some of these types needs arrays, and one on
dictionaries only where some of them needs dictionaries (`moduleText_backs_iff`). A field of a
structure, or the result of a function without a body, can be operated on without being declared
anywhere.
-/

set_option autoImplicit false

namespace ScriptToC

open Ir Text

/-! ## Calls -/

namespace CExpr

mutual

/-- The names that are called in a tree. -/
def calls : CExpr → List String
  | name _ | number _ | literal _ => []
  | paren inner | arrow inner _ | after _ inner | before _ inner => inner.calls
  | call (.name called) args => called :: callsOf args
  | call callee args => callee.calls ++ callsOf args
  | index object key => object.calls ++ key.calls
  | between _ lhs rhs | assign _ lhs rhs => lhs.calls ++ rhs.calls
  | conditional test yes no => test.calls ++ yes.calls ++ no.calls

/-- The names that are called in some trees. -/
def callsOf : List CExpr → List String
  | [] => []
  | tree :: rest => tree.calls ++ callsOf rest

end

end CExpr

/-- The names that are called in the bodies of a module. -/
def Ir.Module.calls (types : Types) (module : Module) : List String :=
  (module.codes types).flatMap fun code => code.trees.flatMap CExpr.calls

/-- The operations on arrays. -/
def arrayOperations : List String :=
  ["ARRAY_CREATE", "ARRAY_PUSH", "ARRAY_POP"]

/-- The operations on dictionaries. -/
def dictOperations : List String :=
  ["DICT_CREATE", "DICT_SET", "DICT_GET"]

/-! ## Definitions -/

/-- How the definition of a macro with parameters begins. -/
def macroHead (operation : String) : List Char :=
  ("#define " ++ operation ++ "(").toList

/-- The macros for arrays are the operations on arrays. Those for dictionaries have a letter in
their names that does not occur here. -/
theorem macros_arrayRuntime :
    (∀ operation ∈ arrayOperations, macroHead operation <:+: arrayRuntime.toList) ∧
      'D' ∉ arrayRuntime.toList := by
  rw [arrayRuntime, toList_textOfLines]
  simp only [List.flatMap_cons]
  repeat rw [String.toList_ofList]
  decide +kernel

theorem macros_dictRuntime :
    ∀ operation ∈ dictOperations, macroHead operation <:+: dictRuntime.toList := by
  rw [dictRuntime, toList_textOfLines]
  simp only [List.flatMap_cons]
  repeat rw [String.toList_ofList]
  decide +kernel

namespace CProgram

/-- The runtime in a file, which stands in its preamble. -/
def runtime (program : CProgram) : List String :=
  (if program.usesArrays then [arrayRuntime] else []) ++
    if program.usesDicts then [dictRuntime] else []

/-- The runtime in a file defines an operation. -/
def Defines (program : CProgram) (operation : String) : Prop :=
  ∃ text ∈ program.runtime, macroHead operation <:+: text.toList

/-- The file defines the operations that are called, and what these build upon: if an operation on
arrays is called, all operations on arrays; if one on dictionaries is, all operations, and then the
file includes the headers that they need. -/
structure Backs (program : CProgram) (calls : List String) : Prop where
  arrays : (∃ operation ∈ arrayOperations, operation ∈ calls) →
    ∀ operation ∈ arrayOperations, program.Defines operation
  dicts : (∃ operation ∈ dictOperations, operation ∈ calls) →
    (∀ operation ∈ arrayOperations ++ dictOperations, program.Defines operation) ∧
      ∀ header ∈ ["stdlib", "string", "stdint"], header ∈ program.includes

variable {program : CProgram}

theorem mem_runtime {text : String} : text ∈ program.runtime ↔
    (program.usesArrays = true ∧ text = arrayRuntime) ∨
      (program.usesDicts = true ∧ text = dictRuntime) := by
  rw [runtime, List.mem_append]
  cases program.usesArrays <;> cases program.usesDicts <;>
    simp only [if_true, if_false, Bool.false_eq_true, List.mem_singleton, List.not_mem_nil,
      false_and, true_and]

theorem defines_arrays (uses : program.usesArrays = true) :
    ∀ operation ∈ arrayOperations, program.Defines operation := by
  intro operation member
  exact ⟨arrayRuntime, mem_runtime.2 (.inl ⟨uses, rfl⟩), macros_arrayRuntime.1 operation member⟩

theorem defines_dicts (uses : program.usesDicts = true) :
    ∀ operation ∈ dictOperations, program.Defines operation := by
  intro operation member
  exact ⟨dictRuntime, mem_runtime.2 (.inr ⟨uses, rfl⟩), macros_dictRuntime operation member⟩

/-- Only the runtime for dictionaries defines their creation. -/
theorem usesDicts_of_defines (defines : program.Defines "DICT_CREATE") :
    program.usesDicts = true := by
  obtain ⟨text, member, inside⟩ := defines
  obtain ⟨-, rfl⟩ | ⟨uses, -⟩ := mem_runtime.1 member
  · exact absurd (inside.subset (by decide)) macros_arrayRuntime.2
  · exact uses

/-- What a file backs follows from what it uses. -/
theorem backs_iff {calls : List String}
    (both : program.usesDicts = true → program.usesArrays = true)
    (headers : program.usesDicts = true →
      ∀ header ∈ ["stdlib", "string", "stdint"], header ∈ program.includes) :
    program.Backs calls ↔
      ((∃ operation ∈ arrayOperations, operation ∈ calls) → program.usesArrays = true) ∧
        ((∃ operation ∈ dictOperations, operation ∈ calls) → program.usesDicts = true) := by
  constructor
  · rintro ⟨arrays, dicts⟩
    constructor
    · intro called
      obtain ⟨text, member, -⟩ := arrays called "ARRAY_CREATE" (by decide)
      obtain ⟨uses, -⟩ | ⟨uses, -⟩ := mem_runtime.1 member
      · exact uses
      · exact both uses
    · intro called
      exact usesDicts_of_defines ((dicts called).1 "DICT_CREATE" (by decide))
  · rintro ⟨arrays, dicts⟩
    constructor
    · intro called
      exact defines_arrays (arrays called)
    · intro called
      have uses := dicts called
      exact ⟨List.forall_mem_append.2 ⟨defines_arrays (both uses), defines_dicts uses⟩,
        headers uses⟩

end CProgram

/-! ## Declared types -/

/-- The variables that a file declares. -/
def CProgram.declared (program : CProgram) : List Variable :=
  program.openings.flatMap Opening.locals

/-- Scopes that fit some openings have the locals of these. -/
theorem allLocals_eq {openings : List Opening} {scopes : List Scope}
    (fits : List.Forall₂ Opening.Fits openings scopes) :
    scopes.flatMap (·.locals) = openings.flatMap Opening.locals := by
  induction fits with
  | nil => rfl
  | cons here _ ih => rw [List.flatMap_cons, List.flatMap_cons, here.1, ih]

/-- The types that the runtime of a file depends on: those of the variables that the file declares
and of the signatures of its functions. -/
def CProgram.heldTypes (program : CProgram) (functions : List Ir.Function) : List CType :=
  program.declared.map (·.type) ++ functions.flatMap Emit.signatureTypes

/-! ## Headers -/

theorem Headers.mem_includes {headers : Headers} {name : String} :
    name ∈ headers.includes ↔ headers.contains name = true := by
  rw [includes, List.mem_append, List.mem_filter, List.mem_filter]
  have listed : headers.contains name = true ↔ name ∈ headers.names := List.contains_iff_mem
  by_cases standard : name ∈ Headers.standard <;> simp [listed, standard]

namespace Emit

theorem usesArrays_iff {types : List CType} :
    (Runtime.ofTypes types).usesArrays = true ↔ ∃ type ∈ types, type.usesArrays = true := by
  rw [Runtime.ofTypes, Bool.or_eq_true, List.any_eq_true, List.any_eq_true]
  constructor
  · rintro (⟨type, member, uses⟩ | found)
    · exact ⟨type, member, CType.usesArrays_of_usesDicts uses⟩
    · exact found
  · exact .inr

theorem usesDicts_iff {types : List CType} :
    (Runtime.ofTypes types).usesDicts = true ↔ ∃ type ∈ types, type.usesDicts = true :=
  List.any_eq_true

/-- Dictionaries need all headers of the runtime. -/
theorem mem_headersOfTypes {types : List CType}
    (uses : (Runtime.ofTypes types).usesDicts = true) :
    ∀ header ∈ ["stdlib", "string", "stdint"], header ∈ headersOfTypes types := by
  have both : (Runtime.ofTypes types).usesArrays = true := by
    obtain ⟨type, member, uses⟩ := usesDicts_iff.1 uses
    exact usesArrays_iff.2 ⟨type, member, CType.usesArrays_of_usesDicts uses⟩
  simp [headersOfTypes, uses, both]

/-- Registering some headers adds them all. -/
theorem forM_needs (list : List String) (headers : Headers) :
    (list.forM needs : ExprM Unit) headers = (.ok (), list.foldl Headers.register headers) := by
  induction list generalizing headers with
  | nil => rfl
  | cons first rest ih => exact ih (headers.register first)

end Emit

theorem Headers.contains_foldl_register {list : List String} {headers : Headers} {name : String}
    (there : name ∈ list ∨ headers.contains name = true) :
    (list.foldl Headers.register headers).contains name = true := by
  induction list generalizing headers with
  | nil => exact there.resolve_left List.not_mem_nil
  | cons first rest ih =>
    apply ih
    rw [contains_register, Bool.or_eq_true, beq_iff_eq]
    obtain member | present := there
    · obtain rfl | member := List.mem_cons.1 member
      · exact .inr (.inl rfl)
      · exact .inl member
    · exact .inr (.inr present)

/-! ## Files -/

namespace Emit

variable {σ : Setting} {module : Module} {w w' : Workspace} {file : CProgram} {text : String}

/-- The runtime of a file is that which its declared types need. -/
theorem program_runtime (start : w.scopes = {}) (run : program module σ w = (.ok file, w')) :
    file.usesArrays = (Runtime.ofTypes (file.heldTypes module.functions)).usesArrays ∧
      file.usesDicts = (Runtime.ofTypes (file.heldTypes module.functions)).usesDicts ∧
      ∀ header ∈ headersOfTypes (file.heldTypes module.functions), header ∈ file.includes := by
  have all := extends_program run
  rw [start] at all
  have declared : w'.scopes.allLocals = file.declared := allLocals_eq all.declaresAll.scopes
  simp only [program, bind_ok, get_bind, pure_ok] at run
  obtain ⟨gs, middle, each, main, ending, last, _, _, needed, rfl, rfl⟩ := run
  obtain ⟨scopes, -⟩ := expr_ok needed
  rw [scopes] at declared
  rw [CProgram.heldTypes, ← declared]
  refine ⟨rfl, rfl, ?_⟩
  intro header member
  rw [expr, forM_needs] at needed
  obtain ⟨-, rfl⟩ := Prod.mk.inj needed
  exact Headers.mem_includes.2 (Headers.contains_foldl_register (.inl member))

/-- The text of a module is that of its file. -/
theorem moduleText_ok (emitted : moduleText module σ w = (.ok text, w')) :
    ∃ file : CProgram, program module σ w = (.ok file, w') ∧
      words text.toList =
        (file.preamble.flatMap fun line => words line.toList) ++ spell file.tokens := by
  rw [moduleText, bind_ok] at emitted
  obtain ⟨file, last, run, rendered⟩ := emitted
  obtain ⟨text', render, same⟩ := render_of_prints (prints_program file)
  rw [Emit.render, render, pure_ok] at rendered
  obtain ⟨rfl, rfl⟩ := rendered
  exact ⟨file, run, same⟩

/-- **When the runtime backs the operations.** A text that is emitted is that of a file in which
stand the texts that the bodies of the module are made of. The file defines what is called in these
texts exactly if the types of what it declares need it. -/
theorem moduleText_backs_iff (start : w.scopes = {})
    (emitted : moduleText module σ w = (.ok text, w')) :
    ∃ file : CProgram, program module σ w = (.ok file, w') ∧
      words text.toList =
        (file.preamble.flatMap fun line => words line.toList) ++ spell file.tokens ∧
      SpellAll (module.codes σ.types) file.texts ∧ Shows file.tokens file.texts ∧
      (file.Backs (module.calls σ.types) ↔
        ((∃ operation ∈ arrayOperations, operation ∈ module.calls σ.types) →
          ∃ type ∈ file.heldTypes module.functions, type.usesArrays = true) ∧
        ((∃ operation ∈ dictOperations, operation ∈ module.calls σ.types) →
          ∃ type ∈ file.heldTypes module.functions, type.usesDicts = true)) := by
  obtain ⟨file, run, same⟩ := moduleText_ok emitted
  obtain ⟨arrays, dicts, headers⟩ := program_runtime start run
  refine ⟨file, run, same, spells_program run, shows_program file, ?_⟩
  rw [← usesArrays_iff, ← usesDicts_iff, ← arrays, ← dicts]
  apply CProgram.backs_iff
  · intro uses
    rw [dicts, usesDicts_iff] at uses
    obtain ⟨type, member, uses⟩ := uses
    rw [arrays, usesArrays_iff]
    exact ⟨type, member, CType.usesArrays_of_usesDicts uses⟩
  · intro uses header member
    rw [dicts] at uses
    exact headers header (mem_headersOfTypes uses header member)

/-- A step that gives something succeeds. -/
theorem ok_of_isSome {α : Type} {step : EmitM α}
    (isSome : (step σ w).1.toOption.isSome = true) : ∃ a, step σ w = (.ok a, (step σ w).2) := by
  generalize step σ w = result at isSome
  obtain ⟨_ | a, last⟩ := result
  · cases isSome
  · exact ⟨a, rfl⟩

/-- A setting in which some nodes have types. -/
def wordsAndCounts : Setting where
  types
    | 1 | 2 => some (.dict .number)
    | 3 | 4 => some (.dynamicArray .number)
    | _ => none
  includeMarker := "ts2c"

/-- A count is found in a dictionary, and put into an array. Both are declared. -/
def countWords : Module :=
  ⟨[], [
    .declaration ⟨5, ⟨0, 43⟩⟩ [
      ⟨⟨1, ⟨4, 21⟩⟩, "counts", some (.object ⟨6, ⟨13, 21⟩⟩
        [("one", .number ⟨7, ⟨19, 20⟩⟩ "1")])⟩,
      ⟨⟨3, ⟨23, 42⟩⟩, "found", some (.array ⟨8, ⟨40, 42⟩⟩ [])⟩],
    .expression ⟨9, ⟨44, 71⟩⟩ (.call ⟨10, ⟨44, 70⟩⟩
      (.member ⟨11, ⟨44, 54⟩⟩ (.ident ⟨4, ⟨44, 49⟩⟩ "found") "push")
      [.index ⟨12, ⟨55, 69⟩⟩ (.ident ⟨2, ⟨55, 61⟩⟩ "counts") (.string ⟨13, ⟨62, 67⟩⟩ "one")])]⟩

/-- What is declared has the types of the containers, and the file defines what is called. -/
theorem moduleText_backs_iff_countWords : ∃ text w' file,
    ({} : Workspace).scopes = {} ∧ moduleText countWords wordsAndCounts {} = (.ok text, w') ∧
      program countWords wordsAndCounts {} = (.ok file, w') ∧
      countWords.calls wordsAndCounts.types =
        ["DICT_CREATE", "DICT_SET", "ARRAY_CREATE", "ARRAY_PUSH", "DICT_GET"] ∧
      file.heldTypes countWords.functions = [.dict .number, .dynamicArray .number] ∧
      file.Backs (countWords.calls wordsAndCounts.types) := by
  obtain ⟨text, emitted⟩ : ∃ text, moduleText countWords wordsAndCounts {} =
      (.ok text, (moduleText countWords wordsAndCounts {}).2) :=
    ok_of_isSome (by decide +kernel)
  obtain ⟨file, run, -, -, -, backs⟩ := moduleText_backs_iff rfl emitted
  have held : (program countWords wordsAndCounts {}).1.toOption.map
      (·.heldTypes countWords.functions) = some [.dict .number, .dynamicArray .number] := by
    decide +kernel
  rw [run] at held
  have held : file.heldTypes countWords.functions = [.dict .number, .dynamicArray .number] :=
    Option.some.inj held
  refine ⟨text, _, file, rfl, emitted, run, by decide +kernel, held, backs.2 ?_⟩
  rw [held]
  decide +kernel

/-- A setting in which a field of a structure is an array. -/
def itemsOfStack : Setting where
  types
    | 1 => some (.struct "Stack")
    | 2 => some (.dynamicArray .number)
    | 3 => some .number
    | _ => none
  includeMarker := "ts2c"

/-- A function that adds an element to a field of its parameter. -/
def pushToField : Module :=
  ⟨[⟨⟨7, ⟨36, 96⟩⟩, "add", [⟨8, "s", .struct "Stack"⟩, ⟨9, "n", .number⟩], .void, [
    .expression ⟨4, ⟨78, 94⟩⟩ (.call ⟨5, ⟨78, 93⟩⟩
      (.member ⟨6, ⟨78, 90⟩⟩ (.member ⟨2, ⟨78, 85⟩⟩ (.ident ⟨1, ⟨78, 79⟩⟩ "s") "items") "push")
      [.ident ⟨3, ⟨91, 92⟩⟩ "n"])]⟩], []⟩

/-- No variable and no signature mentions the type of the field, and the file does not define what
it calls. -/
theorem pushToField_not_backed : ∃ text w' file,
    moduleText pushToField itemsOfStack {} = (.ok text, w') ∧
      program pushToField itemsOfStack {} = (.ok file, w') ∧
      file.preamble = ["#include <stdlib.h>", "#include <stdint.h>",
        "void add(struct Stack *s, int16_t n);"] ∧
      .phrase "ARRAY_PUSH(s->items, n);" ∈ file.tokens ∧
      ¬ file.Backs (pushToField.calls itemsOfStack.types) := by
  obtain ⟨text, emitted⟩ : ∃ text, moduleText pushToField itemsOfStack {} =
      (.ok text, (moduleText pushToField itemsOfStack {}).2) :=
    ok_of_isSome (by decide +kernel)
  have seen : (program pushToField itemsOfStack {}).1.toOption.map
      (fun file => (file.preamble, file.runtime, file.tokens)) =
        some (["#include <stdlib.h>", "#include <stdint.h>",
          "void add(struct Stack *s, int16_t n);"], [],
          [.opening "void add(struct Stack *s, int16_t n)\n",
            .phrase "ARRAY_PUSH(s->items, n);", .closing,
            .opening "int main(void)\n", .phrase "return 0;", .closing]) := by
    decide +kernel
  obtain ⟨file, run, -⟩ := moduleText_ok emitted
  rw [run] at seen
  obtain ⟨preamble, rest⟩ := Prod.mk.inj (Option.some.inj seen)
  obtain ⟨runtime, tokens⟩ := Prod.mk.inj rest
  have called : ∃ operation ∈ arrayOperations,
      operation ∈ pushToField.calls itemsOfStack.types := by
    decide +kernel
  refine ⟨text, _, file, emitted, run, preamble, by rw [tokens]; decide, ?_⟩
  intro backs
  obtain ⟨_, member, -⟩ := backs.arrays called "ARRAY_PUSH" (by decide)
  rw [runtime] at member
  cases member

end Emit

end ScriptToC
