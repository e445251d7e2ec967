import ScriptToC.Proofs.Emission.Registrations
import ScriptToC.Proofs.Release.Copies
import ScriptToC.Proofs.Runtime.Backing
import ScriptToC.Proofs.Runtime.Spellings

/-!
# What the declarations and releases of a file need

A file defines the macros and includes the headers that its declarations and signatures mention
(`CProgram.BacksTypes`), because both come from the same types. It includes each header once: the
standard ones first, in their fixed order, then the others, in the order in which the statements
registered them (`CProgram.Lists`).

What a `return` releases has been declared when the `return` is emitted, and as long as it is, the
file includes the header of the releases (`stdlib_of_release_declared`). A local that moves outward
afterwards is dropped if there is one of its name already; if no other type needs it, the header is
then missing (`moduleText_backs_declarations`).
-/

set_option autoImplicit false

namespace ScriptToC

open Ir Text

/-! ## Files -/

namespace CProgram

/-- The file mentions the spelling of a type in a declaration or in the signature of a function. -/
def Writes (program : CProgram) (spelling : String) : Prop :=
  (∃ text, .declaration text ∈ program.tokens ∧ Mentions text spelling) ∨
    ∃ f ∈ program.bodies, Mentions f.signature spelling

/-- The file defines and includes what the types in its declarations and signatures need. -/
structure BacksTypes (program : CProgram) : Prop where
  arrays : program.Writes "ARRAY(" →
    ∀ operation ∈ "ARRAY" :: arrayOperations, program.Defines operation
  dicts : program.Writes "DICT(" →
    ∀ operation ∈ "ARRAY" :: arrayOperations ++ "DICT" :: dictOperations, program.Defines operation
  integers : program.Writes "int16_t" ∨ program.Writes "uint8_t" → "stdint" ∈ program.includes

/-- The names that declarations and signatures are spelled with. The name of a function is followed
by a parenthesis. -/
def writtenNames (program : CProgram) (functions : List Ir.Function) : List String :=
  program.declared.map (·.name) ++
    functions.flatMap (fun f => (f.name ++ "(") :: f.params.map (·.name)) ++
      (program.heldTypes functions).flatMap CType.structs

/-- Everything that a file releases, at the returns and at the ends of its functions. -/
def releases (program : CProgram) : List Release :=
  program.bodies.flatMap fun f => f.returns.flatMap (·.releases) ++ f.releases

/-- The file includes the headers of a log, each once: the standard ones first, in their order, then
the others, in the order of their first registrations. -/
structure Lists (program : CProgram) (log : List String) : Prop where
  lines : (program.includes.map fun header => "#include <" ++ header ++ ".h>").Nodup
  mem : ∀ header, header ∈ program.includes ↔ header ∈ log
  order : ∃ others, program.includes = Headers.standard.filter (· ∈ log) ++ others ∧
    (∀ header ∈ others, header ∉ Headers.standard) ∧
      others.Pairwise fun first second => log.idxOf first < log.idxOf second

/-- What is declared in the tokens of a file is what its functions and blocks declare. -/
theorem declares_of_token {program : CProgram} {text : String}
    (token : .declaration text ∈ program.tokens) :
    ∃ x ∈ program.declared, text = x.type.declare x.name ++ ";" := by
  have declares := declares_program program
  have listed : Token.declaration text ∈ program.tokens.filter Token.isDeclaration :=
    List.mem_filter.2 ⟨token, rfl⟩
  rw [declares.only, ← List.flatten_filter_ne_nil, declares.atHeads] at listed
  obtain ⟨_, isHead, isToken⟩ := List.mem_flatten.1 listed
  obtain ⟨locals, isList, rfl⟩ := List.mem_map.1 isHead
  obtain ⟨x, isLocal, same⟩ := List.mem_map.1 isToken
  obtain ⟨opening, isOpening, rfl⟩ := List.mem_map.1 (List.mem_filter.1 isList).1
  cases same
  exact ⟨x, List.mem_flatMap.2 ⟨opening, isOpening, isLocal⟩, rfl⟩

end CProgram

/-! ## Releases in the text -/

/-- The releases of the returns stand in the tokens. -/
def Released (returns : List Returning) (tokens : List Token) : Prop :=
  ∀ returning ∈ returns, ∀ release ∈ returning.releases, release.tokens ⊆ tokens

section Released

variable {returns others : List Returning} {tokens more : List Token}

theorem released_nil (tokens : List Token) : Released [] tokens :=
  nofun

theorem Released.mono (released : Released returns tokens) (subset : tokens ⊆ more) :
    Released returns more :=
  fun returning member release stands =>
    List.Subset.trans (released returning member release stands) subset

theorem Released.append (released : Released returns tokens) (released' : Released others tokens) :
    Released (returns ++ others) tokens :=
  List.forall_mem_append.2 ⟨released, released'⟩

theorem Released.enter (released : Released returns tokens) (step : Nat × Nat) :
    Released (returns.map (.enter step)) tokens :=
  List.forall_mem_map.2 released

end Released

mutual

theorem CStmt.released : ∀ (c : CStmt) (index : Nat), Released (c.returns index) c.tokens
  | .returnStmt _ releases, _ => by
      intro returning member release stands
      obtain rfl := List.mem_singleton.1 member
      exact fun token inside =>
        List.mem_append_left _ (List.mem_flatMap.2 ⟨release, stands, inside⟩)
  | .ifThen _ body, _ | .whileLoop _ body, _ =>
    ((released_block body).mono (List.subset_cons_self _ _)).enter _
  | .ifElse _ body otherwise, _ => by
      refine Released.append (Released.enter ?_ _) (Released.enter ?_ _)
      · exact (released_block body).mono (by simp [CStmt.tokens])
      · exact (released_block otherwise).mono fun token stands => by simp [CStmt.tokens, stands]
  | .doLoop body _, _ => ((released_block body).mono (by simp [CStmt.tokens])).enter _
  | .forLoop _ _ _ _ body, _ => ((released_block body).mono (by simp [CStmt.tokens])).enter _
  | .block body, _ => (released_block body).enter _
  | .switchOn _ cases, _ | .switchByIndex _ _ cases, _ | .clause _ cases, _
  | .forFixed _ _ _ _ _ cases, _ | .forDynamic _ _ _ _ cases, _ | .forKeys _ _ _ cases, _ =>
    ((released_list cases 0).mono fun token stands => by simp [CStmt.tokens, stands]).enter _
  | .breakStmt, _ | .continueStmt, _ | .emptyStmt, _ | .expression _, _ | .importStmt, _
  | .declaration _, _ => released_nil _

theorem released_block : ∀ b : Block CStmt, Released (blockReturns b) (blockTokens b)
  | ⟨locals, statements, forceBraces⟩ => by
      have inside := released_list statements 0
      rw [blockReturns, blockTokens]
      cases braced : Block.isBraced ⟨locals, statements, forceBraces⟩ with
      | true => exact inside.mono fun token stands => by simp [stands]
      | false =>
        -- A block without braces has at most one statement.
        rw [Block.isBraced, Bool.or_eq_false_iff, Bool.or_eq_false_iff] at braced
        obtain ⟨⟨-, few⟩, -⟩ := braced
        match statements with
        | [] => exact released_nil _
        | [only] => exact inside.mono (by simp)
        | first :: second :: rest => simp at few

theorem released_list : ∀ (statements : List CStmt) (index : Nat),
    Released (listReturns index statements) (listTokens statements)
  | [], _ => released_nil _
  | first :: rest, index =>
    Released.append ((first.released index).mono (List.subset_append_left _ _))
      ((released_list rest (index + 1)).mono (List.subset_append_right _ _))

end

/-- What a file releases stands in its text. -/
theorem CProgram.tokens_subset {program : CProgram} {release : Release}
    (releases : release ∈ program.releases) : release.tokens ⊆ program.tokens := by
  obtain ⟨f, isBody, releases⟩ := List.mem_flatMap.1 releases
  have inFunction : release.tokens ⊆ f.tokens := by
    rcases List.mem_append.1 releases with atReturn | atEnd
    · obtain ⟨returning, member, stands⟩ := List.mem_flatMap.1 atReturn
      have inside := released_list f.statements 0 returning member release stands
      exact List.Subset.trans inside fun token stands => by simp [CFunction.tokens, stands]
    · intro token stands
      have listed : token ∈ f.releases.flatMap Release.tokens :=
        List.mem_flatMap.2 ⟨release, atEnd, stands⟩
      simp [CFunction.tokens, listed]
  have tokens : program.tokens = program.bodies.flatMap CFunction.tokens := by
    rw [tokens, bodies, List.flatMap_append, List.flatMap_singleton]
  rw [tokens]
  exact fun token stands => List.mem_flatMap.2 ⟨f, isBody, inFunction stands⟩

/-! ## Headers -/

/-- A file includes each of its headers once. -/
theorem Headers.nodup_includes {headers : Headers} (nodup : headers.names.Nodup) :
    headers.includes.Nodup := by
  have standard : (Headers.standard.filter headers.contains).Nodup :=
    List.Nodup.filter _ (by decide)
  refine List.nodup_append.2 ⟨standard, nodup.filter _, ?_⟩
  rintro header isStandard _ other rfl
  simpa [(List.mem_filter.1 isStandard).1] using (List.mem_filter.1 other).2

/-- Headers that were registered one after another are listed in this order. -/
theorem CProgram.lists_of_registerAll {program : CProgram} {log : List String}
    (includes : program.includes = (Headers.registerAll {} log).includes) : program.Lists log := by
  have contains (header : String) :
      (Headers.registerAll {} log).contains header = true ↔ header ∈ log := by
    rw [Headers.contains_registerAll]
    exact or_iff_left nofun
  refine ⟨?_, ?_, (Headers.registerAll {} log).names.filter (!Headers.standard.contains ·), ?_, ?_,
    (Headers.pairwise_registerAll log).filter _⟩
  · have once : program.includes.Nodup := by
      rw [includes]
      exact Headers.nodup_includes (Headers.nodup_registerAll List.nodup_nil log)
    refine once.map fun first second same => ?_
    have spelled := String.toList_inj.2 same
    exact String.toList_inj.1 (by simpa using spelled)
  · intro header
    rw [includes, Headers.mem_includes, contains]
  · rw [includes, Headers.includes]
    congr 1
    refine List.filter_congr fun header _ => ?_
    rw [Bool.eq_iff_iff, contains, decide_eq_true_iff]
  · intro header other
    simpa using (List.mem_filter.1 other).2

namespace Emit

variable {σ : Setting} {module : Module} {w w' : Workspace} {file : CProgram} {text : String}

theorem registers_forM_needs (list : List String) :
    Registers (list.forM needs : ExprM Unit) list := by
  intro _ _ _ run
  rw [forM_needs] at run
  exact (Prod.mk.inj run).2.symm

/-- The headers of a file are those that its statements and its types register. -/
theorem includes_program (start : w.scopes = {}) (none : w.headers = {})
    (run : program module σ w = (.ok file, w')) :
    file.includes = (Headers.registerAll {}
      (module.headers σ ++ headersOfTypes (file.heldTypes module.functions))).includes := by
  have all := extends_program run
  rw [start] at all
  have declared : w'.scopes.allLocals = file.declared := allLocals_eq all.declaresAll.scopes
  simp only [program, bind_ok, get_bind, pure_ok] at run
  obtain ⟨gs, middle, each, main, ending, last, _, _, needed, rfl, rfl⟩ := run
  rw [(expr_ok needed).1] at declared
  have types := headers_of_expr needed (registers_forM_needs _)
  rw [CProgram.heldTypes, ← declared, types, headers_functionBody last, headers_functions each,
    none, Module.headers, Module.bodies, List.flatMap_append, List.flatMap_singleton,
    Headers.registerAll_append, Headers.registerAll_append]

/-! ## Declarations -/

theorem signature_functionBody {signature : String} {body : List Stmt} {releaseAtEnd isMain : Bool}
    {g : CFunction} (run : functionBody signature body releaseAtEnd isMain σ w = (.ok g, w')) :
    g.signature = signature := by
  cases releaseAtEnd with
  | true =>
    simp only [functionBody, if_true, bind_ok, pure_ok] at run
    obtain ⟨_, _, -, _, _, -, _, _, -, _, _, -, rfl, -⟩ := run
    rfl
  | false =>
    simp only [functionBody, Bool.false_eq_true, if_false, bind_ok, pure_ok] at run
    obtain ⟨_, _, -, _, _, -, _, _, -, _, _, -, rfl, -⟩ := run
    rfl

theorem signatures_functions : ∀ {list : List Function} {gs : List CFunction} {w w' : Workspace},
    functions list σ w = (.ok gs, w') →
      gs.map (·.signature) = list.map fun f => signature f.name f.params f.returns
  | [], _, _, _, run => by
      rw [functions, pure_ok] at run
      obtain ⟨rfl, -⟩ := run
      rfl
  | f :: rest, _, _, _, run => by
      simp only [functions, bind_ok, pure_ok] at run
      obtain ⟨_, _, first, _, _, others, rfl, -⟩ := run
      rw [List.map_cons, List.map_cons, signatures_functions others, signature_functionBody first]

/-- The signatures of a file are those of its functions and that of the main program. -/
theorem signatures_program (run : program module σ w = (.ok file, w')) :
    file.bodies.map (·.signature) = module.functions.map
      (fun f => signature f.name f.params f.returns) ++ ["int main(void)"] := by
  simp only [program, bind_ok, get_bind, pure_ok] at run
  obtain ⟨gs, _, each, main, _, last, _, _, -, rfl, -⟩ := run
  rw [CProgram.bodies, List.map_append, List.map_singleton, signatures_functions each,
    signature_functionBody last]

/-- What a declaration or a signature mentions comes from a type. -/
theorem mentions_of_writes (run : program module σ w = (.ok file, w'))
    (plain : PlainNames (file.writtenNames module.functions)) {spelling : String}
    (isSpelling : spelling ∈ typeSpellings) (writes : file.Writes spelling) :
    ∃ type ∈ file.heldTypes module.functions, Mentions type.cName spelling := by
  have plainName : ∀ name ∈ file.writtenNames module.functions, ¬ Mentions name spelling :=
    fun name isName => plain name isName spelling isSpelling
  simp only [CProgram.writtenNames, List.forall_mem_append] at plainName
  obtain ⟨⟨locals, signatures⟩, -⟩ := plainName
  rcases writes with ⟨_, token, mentions⟩ | ⟨g, isBody, mentions⟩
  · obtain ⟨x, isDeclared, rfl⟩ := CProgram.declares_of_token token
    have type := (mentions_declare isSpelling
      (mentions_before_gap isSpelling (by decide) mentions)).resolve_right
        (locals x.name (List.mem_map_of_mem isDeclared))
    exact ⟨x.type, List.mem_append_left _ (List.mem_map_of_mem isDeclared), type⟩
  · have listed : g.signature ∈ file.bodies.map (·.signature) := List.mem_map_of_mem isBody
    rw [signatures_program run] at listed
    rcases List.mem_append.1 listed with ofFunction | ofMain
    · obtain ⟨f, isFunction, same⟩ := List.mem_map.1 ofFunction
      have held : ∀ type ∈ signatureTypes f, type ∈ file.heldTypes module.functions :=
        fun type isType => List.mem_append_right _ (List.mem_flatMap.2 ⟨f, isFunction, isType⟩)
      have named : ∀ name ∈ (f.name ++ "(") :: f.params.map (·.name), ¬ Mentions name spelling :=
        fun name isName => signatures name (List.mem_flatMap.2 ⟨f, isFunction, isName⟩)
      rw [← same] at mentions
      rcases mentions_signature isSpelling mentions with result | name | ⟨param, isParam, mentions⟩
      · exact ⟨f.returns, held _ (List.mem_append_right _ (List.mem_singleton_self _)), result⟩
      · exact absurd name (named _ List.mem_cons_self)
      · have type := (mentions_declare isSpelling mentions).resolve_right
          (named _ (List.mem_cons_of_mem _ (List.mem_map_of_mem isParam)))
        exact ⟨param.type, held _ (List.mem_append_left _ (List.mem_map_of_mem isParam)), type⟩
    · rw [List.mem_singleton.1 ofMain] at mentions
      exact absurd mentions (not_mentions_filler isSpelling (by decide))

theorem mem_stdint_headersOfTypes {types : List CType} {type : CType} (member : type ∈ types)
    (needs : type.usesArrays = true ∨ isFixedWidth type = true) :
    "stdint" ∈ headersOfTypes types := by
  have condition : ((Runtime.ofTypes types).usesArrays || types.any isFixedWidth) = true := by
    rw [Bool.or_eq_true, usesArrays_iff, List.any_eq_true]
    exact needs.imp (fun uses => ⟨type, member, uses⟩) fun wide => ⟨type, member, wide⟩
  rw [headersOfTypes, if_pos condition]
  exact List.mem_append_right _ (List.mem_singleton_self _)

theorem mem_stdlib_headersOfTypes {types : List CType} : "stdlib" ∈ headersOfTypes types ↔
    ∃ type ∈ types, type.usesArrays = true ∨ type.isHeapOwned = true := by
  have condition : ((Runtime.ofTypes types).usesArrays || types.any CType.isHeapOwned) = true ↔
      ∃ type ∈ types, type.usesArrays = true ∨ type.isHeapOwned = true := by
    rw [Bool.or_eq_true, usesArrays_iff, List.any_eq_true]
    simp only [and_or_left, exists_or]
  rw [← condition, headersOfTypes]
  split <;> split <;> split <;> simp_all

/-- The runtimes define the spellings of their types, too. -/
theorem macros_types :
    macroHead "ARRAY" <:+: arrayRuntime.toList ∧ macroHead "DICT" <:+: dictRuntime.toList := by
  rw [arrayRuntime, dictRuntime, toList_textOfLines, toList_textOfLines]
  simp only [List.flatMap_cons]
  repeat rw [String.toList_ofList]
  decide +kernel

/-- The types of a file back what it declares. -/
theorem backsTypes_program (start : w.scopes = {}) (none : w.headers = {})
    (run : program module σ w = (.ok file, w'))
    (plain : PlainNames (file.writtenNames module.functions)) : file.BacksTypes := by
  obtain ⟨usesArrays, usesDicts, -⟩ := program_runtime start run
  have lists := CProgram.lists_of_registerAll (includes_program start none run)
  have structs : ∀ type ∈ file.heldTypes module.functions, PlainNames type.structs :=
    fun type held name isName =>
      plain name (List.mem_append_right _ (List.mem_flatMap.2 ⟨type, held, isName⟩))
  have arrays (uses : file.usesArrays = true) :
      ∀ operation ∈ "ARRAY" :: arrayOperations, file.Defines operation :=
    List.forall_mem_cons.2 ⟨⟨_, CProgram.mem_runtime.2 (.inl ⟨uses, rfl⟩), macros_types.1⟩,
      CProgram.defines_arrays uses⟩
  have dicts (uses : file.usesDicts = true) :
      ∀ operation ∈ "DICT" :: dictOperations, file.Defines operation :=
    List.forall_mem_cons.2 ⟨⟨_, CProgram.mem_runtime.2 (.inr ⟨uses, rfl⟩), macros_types.2⟩,
      CProgram.defines_dicts uses⟩
  have integers {spelling : String} (isSpelling : spelling ∈ typeSpellings)
      (writes : file.Writes spelling) : "stdint" ∈ file.includes := by
    obtain ⟨type, held, mentions⟩ := mentions_of_writes run plain isSpelling writes
    have needs := CType.needsIntegers_of_mentions (structs type held) isSpelling mentions
    exact (lists.mem _).2 (List.mem_append_right _ (mem_stdint_headersOfTypes held needs))
  refine ⟨?_, ?_, ?_⟩
  · intro writes
    obtain ⟨type, held, mentions⟩ := mentions_of_writes run plain (by decide) writes
    refine arrays ?_
    rw [usesArrays, usesArrays_iff]
    exact ⟨type, held, CType.usesArrays_of_mentions (structs type held) mentions⟩
  · intro writes
    obtain ⟨type, held, mentions⟩ := mentions_of_writes run plain (by decide) writes
    have uses := CType.usesDicts_of_mentions (structs type held) mentions
    refine List.forall_mem_append.2 ⟨arrays ?_, dicts ?_⟩
    · rw [usesArrays, usesArrays_iff]
      exact ⟨type, held, CType.usesArrays_of_usesDicts uses⟩
    · rw [usesDicts, usesDicts_iff]
      exact ⟨type, held, uses⟩
  · rintro (writes | writes)
    · exact integers (by decide) writes
    · exact integers (by decide) writes

/-! ## Releases -/

/-- Each release of a function is that of a variable. -/
theorem owned_functionBody (wf : w.scopes.WellFormed) {signature : String} {body : List Stmt}
    {releaseAtEnd isMain : Bool} {g : CFunction}
    (run : functionBody signature body releaseAtEnd isMain σ w = (.ok g, w')) :
    ∀ release ∈ g.returns.flatMap (·.releases) ++ g.releases,
      ∃ x : Variable, x.release? = some release := by
  have ofPlan {layers : List (List Variable)} {returned : Option String} {release : Release}
      (member : release ∈ planned layers returned) : ∃ x : Variable, x.release? = some release := by
    obtain ⟨x, -, owns⟩ := List.mem_filterMap.1 member
    exact ⟨x, owns⟩
  obtain ⟨returns, ends⟩ := releases_functionBody wf run
  refine List.forall_mem_append.2 ⟨?_, ?_⟩
  · intro release member
    obtain ⟨returning, isReturn, inside⟩ := List.mem_flatMap.1 member
    rw [returns] at isReturn
    obtain ⟨_, _, plan⟩ := exists_layers_of_mem_rowPlans isReturn
    rw [plan] at inside
    exact ofPlan inside
  · intro release member
    rw [ends] at member
    split at member
    · exact ofPlan member
    · cases member

theorem owned_functions : ∀ {list : List Function} {gs : List CFunction} {w w' : Workspace},
    w.scopes.WellFormed → functions list σ w = (.ok gs, w') →
      ∀ g ∈ gs, ∀ release ∈ g.returns.flatMap (·.releases) ++ g.releases,
        ∃ x : Variable, x.release? = some release
  | [], _, _, _, _, run => by
      rw [functions, pure_ok] at run
      obtain ⟨rfl, -⟩ := run
      exact List.forall_mem_nil _
  | f :: rest, _, _, _, wf, run => by
      simp only [functions, bind_ok, pure_ok] at run
      obtain ⟨_, _, first, _, _, others, rfl, -⟩ := run
      have wf' := ((evolving_functionBody _ _ _ _).evolves first).scopes.wellFormed wf
      exact List.forall_mem_cons.2 ⟨owned_functionBody wf first, owned_functions wf' others⟩

/-- What a file releases is owned by a variable, and if the variable is declared in the file, the
header of the release is included. So only the release of a variable that moved outward and was
dropped can lack it. -/
theorem stdlib_of_release_declared (start : w.scopes = {}) (none : w.headers = {})
    (run : program module σ w = (.ok file, w')) {release : Release}
    (releases : release ∈ file.releases) :
    (∃ x : Variable, x.release? = some release) ∧
      ∀ x ∈ file.declared, x.release? = some release → "stdlib" ∈ file.includes := by
  constructor
  · have wf : w.scopes.WellFormed := start ▸ ScopeTree.wellFormed_empty
    obtain ⟨g, isBody, inside⟩ := List.mem_flatMap.1 releases
    simp only [program, bind_ok, get_bind, pure_ok] at run
    obtain ⟨gs, _, each, main, _, last, _, _, -, rfl, -⟩ := run
    have wf' := ((evolving_functions _).evolves each).scopes.wellFormed wf
    rcases List.mem_append.1 isBody with ofFunction | ofMain
    · exact owned_functions wf each g ofFunction release inside
    · obtain rfl := List.mem_singleton.1 ofMain
      exact owned_functionBody wf' last release inside
  · intro x declared owns
    have owned : x.type.isHeapOwned = true := by rw [← x.isSome_release?, owns]; rfl
    have held : x.type ∈ file.heldTypes module.functions :=
      List.mem_append_left _ (List.mem_map_of_mem declared)
    have lists := CProgram.lists_of_registerAll (includes_program start none run)
    rw [lists.mem, List.mem_append, mem_stdlib_headersOfTypes]
    exact .inr ⟨x.type, held, .inr owned⟩

/-- **What declarations and releases need.** If no name looks like the spelling of a type, the file
of a module defines the macros and includes the integers that its declarations and signatures
mention. It lists the headers that its statements and its types register. What it releases has its
header exactly if some type of what is declared or of a signature needs the heap, or the statements
register this header. -/
theorem moduleText_backs_declarations (start : w.scopes = {}) (none : w.headers = {})
    (emitted : moduleText module σ w = (.ok text, w')) :
    ∃ file : CProgram, program module σ w = (.ok file, w') ∧
      words text.toList =
        (file.preamble.flatMap fun line => words line.toList) ++ spell file.tokens ∧
      (PlainNames (file.writtenNames module.functions) → file.BacksTypes) ∧
      file.Lists (module.headers σ ++ headersOfTypes (file.heldTypes module.functions)) ∧
      (∀ release ∈ file.releases, release.tokens ⊆ file.tokens) ∧
      ((file.releases ≠ [] → "stdlib" ∈ file.includes) ↔
        (file.releases ≠ [] → "stdlib" ∈ module.headers σ ∨
          ∃ type ∈ file.heldTypes module.functions,
            type.usesArrays = true ∨ type.isHeapOwned = true)) := by
  obtain ⟨file, run, same⟩ := moduleText_ok emitted
  have lists := CProgram.lists_of_registerAll (includes_program start none run)
  refine ⟨file, run, same, backsTypes_program start none run, lists,
    fun _ => CProgram.tokens_subset, ?_⟩
  rw [lists.mem, List.mem_append, mem_stdlib_headersOfTypes]

/-- Two headers are imported before the counts are taken. -/
def importAndCount : Module :=
  ⟨[], .importFrom ⟨20, ⟨0, 22⟩⟩ "ts2c/sensors" :: .importFrom ⟨21, ⟨23, 43⟩⟩ "ts2c/clock" ::
    countWords.topLevel⟩

/-- The file has macros and headers for a dictionary and an array, which it releases, and includes
what was imported in its order. -/
theorem moduleText_backs_declarations_importAndCount : ∃ text w' file,
    ({} : Workspace).scopes = {} ∧ ({} : Workspace).headers = {} ∧
      moduleText importAndCount wordsAndCounts {} = (.ok text, w') ∧
      program importAndCount wordsAndCounts {} = (.ok file, w') ∧
      PlainNames (file.writtenNames importAndCount.functions) ∧ file.BacksTypes ∧
      file.Writes "ARRAY(" ∧ file.Writes "DICT(" ∧
      file.includes = ["stdlib", "string", "stdint", "sensors", "clock"] ∧
      file.releases ≠ [] := by
  obtain ⟨text, emitted⟩ : ∃ text, moduleText importAndCount wordsAndCounts {} =
      (.ok text, (moduleText importAndCount wordsAndCounts {}).2) :=
    ok_of_isSome (by decide +kernel)
  obtain ⟨file, run, -, backs, -⟩ := moduleText_backs_declarations rfl rfl emitted
  have seen : (program importAndCount wordsAndCounts {}).1.toOption.map (fun file =>
      (file.writtenNames importAndCount.functions, file.includes, file.releases.length,
        file.tokens.take 3)) =
      some (["counts", "found"], ["stdlib", "string", "stdint", "sensors", "clock"], 2,
        [.opening "int main(void)\n", .declaration "DICT(int16_t) counts;",
          .declaration "ARRAY(int16_t) found;"]) := by
    decide +kernel
  rw [run] at seen
  obtain ⟨names, rest⟩ := Prod.mk.inj (Option.some.inj seen)
  obtain ⟨includes, rest⟩ := Prod.mk.inj rest
  obtain ⟨count, head⟩ := Prod.mk.inj rest
  have plain : PlainNames (file.writtenNames importAndCount.functions) := by
    rw [names]
    decide +kernel
  have token {token : Token} (member : token ∈ file.tokens.take 3) : token ∈ file.tokens :=
    List.mem_of_mem_take member
  rw [head] at token
  refine ⟨text, _, file, rfl, rfl, emitted, run, plain, backs plain, ?_, ?_, includes, ?_⟩
  · exact .inl ⟨"ARRAY(int16_t) found;", token (by decide), by decide +kernel⟩
  · exact .inl ⟨"DICT(int16_t) counts;", token (by decide), by decide +kernel⟩
  · intro nothing
    rw [nothing] at count
    cases count

/-- A setting in which a number and a dictionary have the same name. -/
def numberAndDict : Setting where
  types
    | 4 | 5 | 7 | 14 => some .number
    | 10 => some (.dict .number)
    | _ => none
  includeMarker := "ts2c"

/-- A function returns from a clause in which a dictionary is declared. The dictionary has the name
of a number around the `switch`. -/
def returnFromClause : Module :=
  ⟨[⟨⟨1, ⟨0, 142⟩⟩, "f", [⟨2, "n", .number⟩], .number, [
    .declaration ⟨3, ⟨34, 44⟩⟩ [⟨⟨4, ⟨38, 43⟩⟩, "x", some (.ident ⟨5, ⟨42, 43⟩⟩ "n")⟩],
    .switchOn ⟨6, ⟨47, 128⟩⟩ (.ident ⟨7, ⟨55, 56⟩⟩ "n") [
      ⟨some (.number ⟨8, ⟨69, 70⟩⟩ "1"), [
        .declaration ⟨9, ⟨78, 108⟩⟩ [⟨⟨10, ⟨82, 107⟩⟩, "x", none⟩],
        .returnStmt ⟨11, ⟨115, 124⟩⟩ (some (.number ⟨12, ⟨122, 123⟩⟩ "1"))]⟩],
    .returnStmt ⟨13, ⟨131, 140⟩⟩ (some (.ident ⟨14, ⟨138, 139⟩⟩ "x"))]⟩], []⟩

/-- The dictionary is released before it is dropped, and nothing else asks for the header of the
release. -/
theorem releases_without_header : ∃ text w' file,
    moduleText returnFromClause numberAndDict {} = (.ok text, w') ∧
      program returnFromClause numberAndDict {} = (.ok file, w') ∧
      PlainNames (file.writtenNames returnFromClause.functions) ∧
      file.releases.flatMap (·.frees) = ["free(x->index->data);", "free(x->index);",
        "free(x->values->data);", "free(x->values);", "free(x);"] ∧
      file.includes = ["stdint"] := by
  obtain ⟨text, emitted⟩ : ∃ text, moduleText returnFromClause numberAndDict {} =
      (.ok text, (moduleText returnFromClause numberAndDict {}).2) :=
    ok_of_isSome (by decide +kernel)
  obtain ⟨file, run, -⟩ := moduleText_ok emitted
  have seen : (program returnFromClause numberAndDict {}).1.toOption.map (fun file =>
      (file.writtenNames returnFromClause.functions, file.releases.flatMap (·.frees),
        file.includes)) =
      some (["x", "f(", "n"], ["free(x->index->data);", "free(x->index);",
        "free(x->values->data);", "free(x->values);", "free(x);"], ["stdint"]) := by
    decide +kernel
  rw [run] at seen
  obtain ⟨names, rest⟩ := Prod.mk.inj (Option.some.inj seen)
  obtain ⟨frees, includes⟩ := Prod.mk.inj rest
  refine ⟨text, _, file, emitted, run, ?_, frees, includes⟩
  rw [names]
  decide +kernel

end Emit

end ScriptToC
