import ScriptToC.Proofs.CCode.Files
import ScriptToC.Proofs.Emission.Assignments

/-!
# Every statement is emitted

A statement that stands in an emitted one, at any depth, is emitted itself, and what it becomes is
printed as a part of the whole (`Emits.allEmitted`). So what is known of the C form of one statement
holds of every statement of a module wherever it stands, and its tokens are in the file
(`program_emits_statement`). Blocks are left out: one that is the body of a condition or a loop has
no C form of its own, only its statements have.
-/

set_option autoImplicit false

namespace ScriptToC

open Ir

/-! ## Parts without statements -/

namespace Ir

theorem stmt_not_mem_partsOf (part : Option Expr) (s : Stmt) : .stmt s ∉ partsOf part := by
  cases part with
  | none => exact List.not_mem_nil
  | some e => exact e.stmt_not_mem_parts s

theorem stmt_not_mem_declarators (declarators : List Declarator) (s : Stmt) :
    .stmt s ∉ declarators.flatMap Declarator.parts := by
  intro isPart
  obtain ⟨d, -, isPart⟩ := List.mem_flatMap.1 isPart
  rcases List.mem_cons.1 isPart with ⟨⟨⟩⟩ | isPart
  exact stmt_not_mem_partsOf d.init s isPart

theorem stmt_not_mem_startParts (init : Option ForInit) (s : Stmt) : .stmt s ∉ startParts init := by
  match init with
  | none => exact List.not_mem_nil
  | some (.declare declarators) => exact stmt_not_mem_declarators declarators s
  | some (.evaluate e) => exact e.stmt_not_mem_parts s

theorem ForBinding.stmt_not_mem_parts (left : ForBinding) (s : Stmt) : .stmt s ∉ left.parts := by
  cases left with
  | declare d =>
    intro isPart
    rcases List.mem_cons.1 isPart with ⟨⟨⟩⟩ | isPart
    exact stmt_not_mem_partsOf d.init s isPart
  | target e => exact e.stmt_not_mem_parts s

end Ir

namespace Emit

variable {σ : Setting} {parts others : List Part} {tokens more : List Token}

/-! ## Occurrences -/

/-- A statement is emitted, and what it becomes is printed with some of these tokens. -/
def EmittedIn (σ : Setting) (s : Stmt) (tokens : List Token) : Prop :=
  ∃ scope w c xs w', Emits σ scope s w c xs w' ∧ c.tokens ⊆ tokens

/-- Every statement among the parts that is no block is emitted. -/
def AllEmittedIn (σ : Setting) (parts : List Part) (tokens : List Token) : Prop :=
  ∀ s, .stmt s ∈ parts → s.toBody.block = none → EmittedIn σ s tokens

theorem AllEmittedIn.mono (all : AllEmittedIn σ parts tokens) (sub : tokens ⊆ more) :
    AllEmittedIn σ parts more := by
  intro s isPart noBlock
  obtain ⟨scope, w, c, xs, w', emits, inside⟩ := all s isPart noBlock
  exact ⟨scope, w, c, xs, w', emits, List.Subset.trans inside sub⟩

theorem AllEmittedIn.append (all : AllEmittedIn σ parts tokens)
    (all' : AllEmittedIn σ others tokens) : AllEmittedIn σ (parts ++ others) tokens :=
  fun s isPart => (List.mem_append.1 isPart).elim (all s) (all' s)

theorem allEmittedIn_of_none (none : ∀ s, .stmt s ∉ parts) : AllEmittedIn σ parts tokens :=
  fun s isPart => absurd isPart (none s)

/-- The block of a body is no statement that has to be emitted. -/
theorem AllEmittedIn.inBody {braces : Option Node} {body : List Stmt}
    (all : AllEmittedIn σ (rowParts body) tokens) :
    AllEmittedIn σ (bodyParts ⟨braces, body⟩) tokens := by
  cases braces with
  | none => exact all
  | some node =>
    intro s isPart noBlock
    rcases List.mem_cons.1 isPart with ⟨⟨⟩⟩ | isPart
    · cases noBlock
    · exact all s isPart noBlock

/-- A statement and what stands in it. -/
theorem Emits.around {scope : ScopeId} {s : Stmt} {w w' : Workspace} {c : CStmt}
    {xs : List Variable} (emits : Emits σ scope s w c xs w')
    (inside : AllEmittedIn σ parts c.tokens) : AllEmittedIn σ (.stmt s :: parts) c.tokens := by
  intro other isPart noBlock
  rcases List.mem_cons.1 isPart with same | isPart
  · cases same
    exact ⟨scope, w, c, xs, w', emits, List.Subset.refl _⟩
  · exact inside other isPart noBlock

/-! ## Tokens of what is inside -/

/-- However a block is printed, its statements are. -/
theorem listTokens_subset_block (locals : List Variable) (statements : List CStmt)
    (forceBraces : Bool) :
    listTokens statements ⊆ blockTokens ⟨locals, statements, forceBraces⟩ := by
  rw [blockTokens]
  cases braced : Block.isBraced ⟨locals, statements, forceBraces⟩ with
  | true =>
    rw [if_pos rfl]
    intro token member
    exact List.mem_append_left _ (List.mem_append_left _ (by simp [member]))
  | false =>
    rw [Block.isBraced, Bool.or_eq_false_iff, Bool.or_eq_false_iff] at braced
    obtain ⟨⟨-, few⟩, -⟩ := braced
    match statements with
    | [] => exact List.nil_subset _
    | [only] => simp
    | first :: second :: rest => simp at few

theorem listTokens_subset_switch (select : Selection) (comparisons : List String)
    (cases : List CStmt) : listTokens cases ⊆ (select.switch comparisons cases).tokens := by
  intro token member
  cases select <;> simp [Selection.switch, CStmt.tokens, member]

theorem listTokens_subset_forOf (dynamic : Bool) (counter array cast target : String)
    (capacity : Nat) (statements : List CStmt) :
    listTokens statements ⊆ (if dynamic then .forDynamic counter array cast target statements
      else .forFixed counter capacity array cast target statements : CStmt).tokens := by
  intro token member
  cases dynamic <;> simp [CStmt.tokens, member]

mutual

/-- The statements in an emitted statement are emitted. -/
theorem Emits.allEmitted : ∀ {scope : ScopeId} {s : Stmt} {w w' : Workspace} {c : CStmt}
    {xs : List Variable}, Emits σ scope s w c xs w' → AllEmittedIn σ s.parts c.tokens
  | _, _, _, _, _, _, .breakStmt scope node w =>
    (Emits.breakStmt scope node w).around (allEmittedIn_of_none fun _ => List.not_mem_nil)
  | _, _, _, _, _, _, .continueStmt scope node w =>
    (Emits.continueStmt scope node w).around (allEmittedIn_of_none fun _ => List.not_mem_nil)
  | _, _, _, _, _, _, .emptyStmt scope node w =>
    (Emits.emptyStmt scope node w).around (allEmittedIn_of_none fun _ => List.not_mem_nil)
  | scope, _, _, _, _, _, .importFrom run =>
    (.importFrom run : Emits σ scope _ _ _ _ _).around
      (allEmittedIn_of_none fun _ => List.not_mem_nil)
  | _, .returnStmt _ value, _, _, _, _, .returnStmt run =>
    (Emits.returnStmt run).around (allEmittedIn_of_none (stmt_not_mem_partsOf value))
  | _, .ifThen _ test _, _, _, _, _, .ifThen head yes =>
    (Emits.ifThen head yes).around ((allEmittedIn_of_none test.stmt_not_mem_parts).append
      ((yes.allEmitted _).mono (List.subset_cons_self _ _)).inBody)
  | _, .ifElse _ test body _, _, _, _, _, .ifElse head yes no => by
      refine (Emits.ifElse head yes no).around
        (((allEmittedIn_of_none test.stmt_not_mem_parts).append ?_).append ?_)
      · exact ((yes.allEmitted _).mono fun _ member =>
          List.mem_cons_of_mem _ (List.mem_append_left _ member)).inBody
      · exact ((no.allEmitted _).mono fun _ member =>
          List.mem_cons_of_mem _ (List.mem_append_right _ (List.mem_cons_of_mem _ member))).inBody
  | _, .switchOn _ discriminant _, _, _, _, _, .switchOn head each =>
    (Emits.switchOn head each).around
      ((allEmittedIn_of_none discriminant.stmt_not_mem_parts).append
        (each.allEmitted.mono (listTokens_subset_switch _ _ _)))
  | _, .whileLoop _ test _, _, _, _, _, .whileLoop head loop =>
    (Emits.whileLoop head loop).around ((allEmittedIn_of_none test.stmt_not_mem_parts).append
      ((loop.allEmitted _).mono (List.subset_cons_self _ _)).inBody)
  | _, .doLoop _ _ test, _, _, _, _, .doLoop loop last => by
      refine (Emits.doLoop loop last).around (AllEmittedIn.append ?_
        (allEmittedIn_of_none test.stmt_not_mem_parts))
      exact ((loop.allEmitted _).mono fun _ member =>
        List.mem_cons_of_mem _ (List.mem_append_left _ member)).inBody
  | _, .forLoop _ init test update _, _, _, _, _, .forLoop start head step loop => by
      refine (Emits.forLoop start head step loop).around (AllEmittedIn.append
        (((allEmittedIn_of_none (stmt_not_mem_startParts init)).append
          (allEmittedIn_of_none (stmt_not_mem_partsOf test))).append
            (allEmittedIn_of_none (stmt_not_mem_partsOf update))) ?_)
      exact ((loop.allEmitted _).mono fun _ member =>
        List.mem_append_right _ (List.mem_cons_of_mem _ member)).inBody
  | _, .forOf _ left right body, _, _, _, _, .forOf known head loop => by
      have row := loop.allEmitted
      rw [rowParts, rowParts, List.append_nil] at row
      exact (Emits.forOf known head loop).around
        (((allEmittedIn_of_none right.stmt_not_mem_parts).append
          (allEmittedIn_of_none left.stmt_not_mem_parts)).append
            (row.mono (listTokens_subset_forOf _ _ _ _ _ _ _)))
  | _, .forIn _ left right _, _, _, _, _, .forIn known isDict head loop => by
      refine (Emits.forIn known isDict head loop).around
        (((allEmittedIn_of_none right.stmt_not_mem_parts).append
          (allEmittedIn_of_none left.stmt_not_mem_parts)).append ?_)
      exact (loop.allEmitted.mono (by intro _ member; simp [CStmt.tokens, member])).inBody
  | scope, .expression _ e, _, _, _, _, .expression run =>
    (.expression run : Emits σ scope _ _ _ _ _).around (allEmittedIn_of_none e.stmt_not_mem_parts)
  | _, _, _, _, .block b, _, .block inner => by
      refine (Emits.block inner).around ?_
      rw [CStmt.tokens]
      exact inner.allEmitted b.forceBraces
  | _, .declaration _ declarators, _, _, _, _, .declaration run =>
    (Emits.declaration run).around (allEmittedIn_of_none (stmt_not_mem_declarators declarators))

theorem EmitsAll.allEmitted : ∀ {scope : ScopeId} {body : List Stmt} {w w' : Workspace}
    {cs : List CStmt} {xs : List Variable}, EmitsAll σ scope body w cs xs w' →
      AllEmittedIn σ (rowParts body) (listTokens cs)
  | _, _, _, _, _, _, .nil .. => allEmittedIn_of_none fun _ => List.not_mem_nil
  | _, _, _, _, _, _, .cons first others =>
    (first.allEmitted.mono (List.subset_append_left _ _)).append
      (others.allEmitted.mono (List.subset_append_right _ _))

theorem EmitsBlock.allEmitted : ∀ {scope : ScopeId} {body : List Stmt} {w w' : Workspace}
    {b : Block CStmt}, EmitsBlock σ scope body w b w' → ∀ forceBraces : Bool,
      AllEmittedIn σ (rowParts body) (blockTokens { b with forceBraces })
  | _, _, _, _, _, .intro _ all _, forceBraces =>
    all.allEmitted.mono (listTokens_subset_block _ _ forceBraces)

theorem EmitsHoisted.allEmitted : ∀ {scope : ScopeId} {body : List Stmt} {w w' : Workspace}
    {cs : List CStmt} {xs : List Variable}, EmitsHoisted σ scope body w cs xs w' →
      AllEmittedIn σ (rowParts body) (listTokens cs)
  | _, _, _, _, _, _, .intro _ all _ => all.allEmitted

theorem EmitsClauses.allEmitted : ∀ {scope : ScopeId} {select : Selection} {index : Nat}
    {list : List (Clause Stmt)} {w w' : Workspace} {comparisons : List String}
    {cases : List CStmt} {xs : List Variable},
    EmitsClauses σ scope select index list w comparisons cases xs w' →
      AllEmittedIn σ (clauseParts list) (listTokens cases)
  | _, _, _, _, _, _, _, _, _, .nil .. => allEmittedIn_of_none fun _ => List.not_mem_nil
  | _, _, _, ⟨test, _⟩ :: _, _, _, _, _, _, .cons _ first others => by
      refine AllEmittedIn.append (AllEmittedIn.append
        (allEmittedIn_of_none (stmt_not_mem_partsOf test)) ?_) ?_
      · exact first.allEmitted.mono (by intro _ member; simp [listTokens, CStmt.tokens, member])
      · exact others.allEmitted.mono (List.subset_append_right _ _)

end

/-! ## Files -/

theorem listTokens_subset_function (g : CFunction) : listTokens g.statements ⊆ g.tokens := by
  intro token member
  simp [CFunction.tokens, member]

theorem allEmitted_functionBody {signature : String} {body : List Stmt}
    {releaseAtEnd isMain : Bool} {g : CFunction} {w w' : Workspace}
    (run : functionBody signature body releaseAtEnd isMain σ w = (.ok g, w')) :
    AllEmittedIn σ (rowParts body) g.tokens := by
  obtain ⟨_, _, _, -, all, -⟩ := emits_functionBody run
  exact all.allEmitted.mono (listTokens_subset_function g)

theorem allEmitted_functions : ∀ {list : List Function} {gs : List CFunction} {w w' : Workspace},
    functions list σ w = (.ok gs, w') → ∀ f ∈ list,
      AllEmittedIn σ (rowParts f.body) (gs.flatMap CFunction.tokens)
  | _ :: rest, _, _, _, run, f, member => by
      simp only [functions, bind_ok, pure_ok] at run
      obtain ⟨_, _, first, _, _, others, rfl, -⟩ := run
      rw [List.flatMap_cons]
      rcases List.mem_cons.1 member with rfl | member
      · exact (allEmitted_functionBody first).mono (List.subset_append_left _ _)
      · exact (allEmitted_functions others f member).mono (List.subset_append_right _ _)

/-- Every statement of a module that is no block is emitted into its file. -/
theorem program_emits_statement {module : Module} {file : CProgram} {w w' : Workspace}
    (run : program module σ w = (.ok file, w')) : AllEmittedIn σ module.parts file.tokens := by
  simp only [program, bind_ok, pure_ok] at run
  obtain ⟨gs, _, each, main, _, last, _, _, -, _, _, -, _, _, -, rfl, -⟩ := run
  intro s isPart noBlock
  obtain ⟨body, isBody, isPart⟩ := mem_bodies_of_mem_parts isPart
    (fun _ same => by cases same) (fun _ same => by cases same)
  rw [Module.bodies] at isBody
  rcases List.mem_append.1 isBody with isBody | isBody
  · obtain ⟨f, isFunction, rfl⟩ := List.mem_map.1 isBody
    exact ((allEmitted_functions each f isFunction).mono (List.subset_append_left _ _)) s isPart
      noBlock
  · obtain rfl := List.mem_singleton.1 isBody
    exact ((allEmitted_functionBody last).mono (List.subset_append_right _ _)) s isPart noBlock

end Emit

end ScriptToC
