import ScriptToC.Proofs.Hoisting.Extension

/-!
# No declaration is lost

In the end each scope declares the locals that have it as their home, each name once and in the
order of introduction. A scope that declares something is that of a function or of a block, and its
declarations are printed at the head of this function or block, and nowhere else. Every local that a
statement introduces is declared in the scope of the statement or in a scope around it
(`moduleText_declaresAll`).
-/

set_option autoImplicit false

namespace ScriptToC

open Ir ScopeTree Text

/-! ## First introductions -/

namespace ScopeTree

/-- Declaring in turn keeps the first local of each name. -/
theorem introduce_eq_eraseDupsBy (xs : List Variable) :
    introduce [] xs = xs.eraseDupsBy (fun x y => y.name == x.name) := by
  -- The library collects the kept elements in reverse.
  have loop : ∀ kept : List Variable, introduce kept.reverse xs =
      List.eraseDupsBy.loop (fun x y => y.name == x.name) xs kept := by
    induction xs with
    | nil =>
      intro kept
      rfl
    | cons x rest ih =>
      intro kept
      rw [List.eraseDupsBy.loop, introduce, List.foldl_cons, ← introduce, declare,
        List.any_reverse]
      cases kept.any fun y => y.name == x.name with
      | true => exact ih kept
      | false =>
        rw [if_neg (by decide), ← List.reverse_cons]
        exact ih (x :: kept)
  exact loop []

/-- The scopes of a tree keep their locals in another. -/
def Keeps (before after : ScopeTree) : Prop :=
  ∀ {id : ScopeId}, id < before.size → after.locals? id = before.locals? id

theorem Keeps.trans {first second third : ScopeTree} (keeps : first.Keeps second)
    (keeps' : second.Keeps third) (grows : first.size ≤ second.size) : first.Keeps third := by
  intro id isScope
  rw [keeps' (Nat.lt_of_lt_of_le isScope grows), keeps isScope]

end ScopeTree

/-! ## Functions -/

namespace Emit

variable {σ : Setting} {w w' w'' : Workspace} {names : Names}

/-- A function extends the tree by its scopes, and declares in the first what is introduced there.
-/
theorem extends_functionBody {signature : String} {body : List Stmt} {releaseAtEnd isMain : Bool}
    {g : CFunction}
    (run : functionBody signature body releaseAtEnd isMain σ w = (.ok g, w'))
    (given : w'.names.Given names) :
    Extends none [] g.openings
        (rowIntroductions σ.types names w.scopes.size w.scopes.size (w.scopes.size + 1) body)
        w.scopes w'.scopes ∧
      g.openings.length = 1 + rowScopes body ∧ w.scopes.Keeps w'.scopes := by
  obtain ⟨scope, opened, xs, made, all, locals, kept, -⟩ := emits_functionBody run
  obtain ⟨tree, -, -⟩ := newFunction_ok.1 made
  have number : w.scopes.size = scope := congrArg Prod.fst tree
  have later : opened.scopes = ⟨w.scopes.scopes ++ [⟨none, w.scopes.size, []⟩]⟩ :=
    (congrArg Prod.snd tree).symm
  have opens : w.scopes.Evolves ⟨w.scopes.scopes ++ [⟨none, w.scopes.size, []⟩]⟩ :=
    .single (.function w.scopes)
  have size := congrArg ScopeTree.size later
  rw [size_push] at size
  subst number
  have isScope : w.scopes.size < opened.scopes.size := size ▸ Nat.lt_succ_self _
  have inside := all.extends (.self isScope) given
  have frame := all.frame isScope
  refine ⟨?_, ?_, ?_⟩
  · rw [size, later] at inside
    rw [locals] at kept
    refine inside.enter opens kept locals rfl ?_
    rintro _ ⟨⟩
  · rw [CFunction.openings, List.length_cons, all.length_openings, Nat.add_comm]
  · intro id isOld
    have small : id < opened.scopes.size := Nat.lt_trans isOld isScope
    rw [frame.others small (Nat.ne_of_lt isOld), later, locals?, find?_push,
      if_neg (Nat.ne_of_lt isOld), ← locals?]

/-- A function before others. -/
theorem extends_functionBody_append {signature : String} {body : List Stmt}
    {releaseAtEnd isMain : Bool} {g : CFunction} {bodies : List (List Stmt)}
    {openings : List Opening}
    (run : functionBody signature body releaseAtEnd isMain σ w = (.ok g, w'))
    (given : w'.names.Given names)
    (rest : Extends none [] openings
      (bodyIntroductions σ.types names w'.scopes.size bodies) w'.scopes w''.scopes)
    (kept : w'.scopes.Keeps w''.scopes) :
    Extends none [] (g.openings ++ openings)
        (bodyIntroductions σ.types names w.scopes.size (body :: bodies)) w.scopes w''.scopes ∧
      w.scopes.Keeps w''.scopes := by
  obtain ⟨part, length, kept'⟩ := extends_functionBody run given
  have size := part.size
  rw [length] at size
  rw [size] at rest
  constructor
  · apply part.append rest
    · rintro _ ⟨⟩
    · intro id _ isScope
      exact kept isScope
  · exact kept'.trans kept (size ▸ Nat.le_add_right _ _)

/-- The functions of a module, before others. -/
theorem extends_functions {bodies : List (List Stmt)} {openings : List Opening}
    {list : List Function} {gs : List CFunction}
    (run : functions list σ w = (.ok gs, w')) (evolves : w'.Evolves w'')
    (given : w''.names.Given names)
    (rest : Extends none [] openings
      (bodyIntroductions σ.types names w'.scopes.size bodies) w'.scopes w''.scopes)
    (kept : w'.scopes.Keeps w''.scopes) :
    Extends none [] (gs.flatMap CFunction.openings ++ openings)
        (bodyIntroductions σ.types names w.scopes.size (list.map (·.body) ++ bodies))
        w.scopes w''.scopes ∧
      w.scopes.Keeps w''.scopes := by
  induction list generalizing w gs with
  | nil =>
    rw [functions, pure_ok] at run
    obtain ⟨rfl, rfl⟩ := run
    exact ⟨rest, kept⟩
  | cons f list ih =>
    simp only [functions, bind_ok, pure_ok] at run
    obtain ⟨g, middle, first, gs, _, others, rfl, rfl⟩ := run
    obtain ⟨part, kept'⟩ := ih others
    have later : middle.Evolves w'' := ((evolving_functions list).evolves others).trans evolves
    have all := extends_functionBody_append first (later.given.trans given) part kept'
    rw [List.flatMap_cons, List.append_assoc]
    exact all

/-- The file of a module extends the tree by its scopes. -/
theorem extends_program {module : Module} {file : CProgram}
    (run : program module σ w = (.ok file, w')) :
    Extends none [] file.openings
      (bodyIntroductions σ.types w'.names w.scopes.size module.bodies) w.scopes w'.scopes := by
  simp only [program, bind_ok, get_bind, pure_ok] at run
  obtain ⟨gs, middle, each, main, ending, last, _, _, needed, rfl, rfl⟩ := run
  obtain ⟨scopes, sameNames⟩ := expr_ok needed
  have nothing : Extends none [] [] (bodyIntroductions σ.types ending.names ending.scopes.size [])
      ending.scopes ending.scopes := .refl none ending.scopes
  obtain ⟨part, kept⟩ := extends_functionBody_append last (.refl _) nothing fun _ => rfl
  have evolves := (evolving_functionBody _ _ _ _).evolves last
  obtain ⟨all, -⟩ := extends_functions each evolves (.refl _) part kept
  rw [scopes, sameNames, CProgram.openings, CProgram.bodies, List.flatMap_append]
  exact all

end Emit

/-! ## Modules -/

/-- The scopes of a file declare what was introduced, and the file prints their declarations. -/
structure CProgram.DeclaresAll (file : CProgram) (list : List Introduction) (tree : ScopeTree) :
    Prop where
  /-- The scopes are those of the functions, blocks, loops over collections and clauses of the file.
  Only functions and blocks have locals. -/
  scopes : List.Forall₂ Opening.Fits file.openings tree.scopes
  /-- Each list of locals stands once at the head of its function or block. -/
  printed : Declares file.tokens (file.openings.map Opening.locals)
  /-- A scope has the locals whose home it is, in the order of their first introduction. -/
  firsts : ∀ {id : ScopeId} {scope : Scope}, tree.find? id = some scope →
    scope.locals = (homed list id).eraseDupsBy (fun x y => y.name == x.name) ∧
      (scope.locals.map (·.name)).Nodup
  /-- The home of what is introduced is around it, in its function. -/
  kept : ∀ i ∈ list, tree.Encloses i.home i.scope ∧ tree.func? i.home = tree.func? i.scope ∧
    ∃ locals, tree.locals? i.home = some locals ∧ i.x.name ∈ locals.map (·.name)

/-- A tree that was extended from nothing declares everything. -/
theorem Extends.declaresAll {file : CProgram} {list : List Introduction} {tree : ScopeTree}
    (all : Extends none [] file.openings list {} tree) : file.DeclaresAll list tree := by
  have wf : tree.WellFormed := all.evolves.wellFormed wellFormed_empty
  have inside : ∀ {id : ScopeId}, id < tree.size →
      tree.locals? id = some (introduce [] (homed list id)) :=
    all.inside (Nat.zero_le _)
  refine ⟨?_, declares_program file, ?_, ?_⟩
  · have length : file.openings.length = tree.scopes.length :=
      (Nat.zero_add _).symm.trans all.size.symm
    rw [List.forall₂_iff_get]
    refine ⟨length, ?_⟩
    intro index small small'
    obtain ⟨scope, found, fits⟩ := all.fits (List.getElem?_eq_getElem small)
    rw [show ScopeTree.size {} = 0 from rfl, Nat.zero_add, find?,
      List.getElem?_eq_getElem small'] at found
    cases found
    exact fits
  · intro id scope found
    have locals := inside (lt_size_of_find? found)
    rw [locals?, found, Option.map_some] at locals
    rw [← introduce_eq_eraseDupsBy]
    exact ⟨Option.some.inj locals, wf.names_nodup found⟩
  · intro i member
    have around := all.encloses i member
    refine ⟨around, wf.func?_eq around, _, inside (lt_size_of_encloses around), ?_⟩
    rw [mem_names_introduce, homed, List.map_map]
    right
    refine List.mem_map_of_mem (f := fun i => i.x.name) (List.mem_filter.2 ⟨member, ?_⟩)
    exact decide_eq_true rfl

namespace Emit

variable {σ : Setting} {module : Module} {w w' : Workspace} {text : String}

/-- **No declaration is lost.** A text that is emitted is that of a file whose scopes declare
whatever the statements of the module introduce. -/
theorem moduleText_declaresAll (start : w.scopes = {})
    (emitted : moduleText module σ w = (.ok text, w')) :
    ∃ file : CProgram,
      words text.toList =
        (file.preamble.flatMap fun line => words line.toList) ++ spell file.tokens ∧
      file.DeclaresAll (module.introductions σ.types w'.names) w'.scopes := by
  rw [moduleText, bind_ok] at emitted
  obtain ⟨file, last, run, rendered⟩ := emitted
  obtain ⟨text', render, same⟩ := render_of_prints (prints_program file)
  rw [Emit.render, render, pure_ok] at rendered
  obtain ⟨rfl, rfl⟩ := rendered
  have all := extends_program run
  rw [start] at all
  exact ⟨file, same, all.declaresAll⟩

/-- A setting in which some nodes have types. -/
def rowsAndCells : Setting where
  types
    | 10 => some (.dynamicArray (.dynamicArray .number))
    | 11 => some (.dynamicArray .number)
    | 12 | 13 | 14 => some .number
    | _ => none
  includeMarker := "ts2c"

/-- A loop that runs through `rows` and then selects a clause by the text `kind`. Two declarations
introduce `cell`, each in a scope whose locals move to the block of the loop. -/
def loopWithSwitch : Module :=
  ⟨[], [.whileLoop ⟨0, ⟨0, 99⟩⟩ (.bool ⟨1, ⟨7, 11⟩⟩ true) ⟨some ⟨16, ⟨13, 99⟩⟩, [
    .forOf ⟨2, ⟨15, 50⟩⟩ (.declare ⟨⟨11, ⟨24, 27⟩⟩, "row", none⟩) (.ident ⟨10, ⟨31, 35⟩⟩ "rows")
      (.declaration ⟨3, ⟨37, 50⟩⟩ [⟨⟨12, ⟨41, 49⟩⟩, "cell", some (.number ⟨4, ⟨48, 49⟩⟩ "1")⟩]),
    .switchOn ⟨5, ⟨51, 98⟩⟩ (.ident ⟨6, ⟨59, 63⟩⟩ "kind") [
      ⟨some (.string ⟨7, ⟨70, 75⟩⟩ "one"),
        [.declaration ⟨8, ⟨77, 86⟩⟩ [⟨⟨13, ⟨81, 85⟩⟩, "cell", none⟩]]⟩,
      ⟨none, [.block ⟨9, ⟨87, 97⟩⟩
        [.declaration ⟨15, ⟨88, 96⟩⟩ [⟨⟨14, ⟨92, 95⟩⟩, "last", none⟩]]]⟩]]⟩]⟩

/-- The block of the loop declares `cell` once, after the counter and the variable of the inner loop
and before the temporary; the loop and the clauses declare nothing. -/
theorem moduleText_declaresAll_loopWithSwitch : ∃ text w',
    ({} : Workspace).scopes = {} ∧ moduleText loopWithSwitch rowsAndCells {} = (.ok text, w') ∧
      w'.scopes.scopes.map (·.locals.map (·.name)) =
        [[], ["i", "row", "cell", "tmp_switch"], [], [], [], ["last"]] ∧
      ∃ file : CProgram,
        words text.toList =
          (file.preamble.flatMap fun line => words line.toList) ++ spell file.tokens ∧
        file.DeclaresAll (loopWithSwitch.introductions rowsAndCells.types w'.names) w'.scopes := by
  have isOk : (moduleText loopWithSwitch rowsAndCells {}).1.toOption.isSome = true := by
    decide +kernel
  have emitted : ∃ text, moduleText loopWithSwitch rowsAndCells {} =
      (.ok text, (moduleText loopWithSwitch rowsAndCells {}).2) := by
    generalize moduleText loopWithSwitch rowsAndCells {} = result at isOk
    obtain ⟨_ | text, w'⟩ := result
    · cases isOk
    · exact ⟨text, rfl⟩
  obtain ⟨text, emitted⟩ := emitted
  exact ⟨text, _, rfl, emitted, by decide +kernel, moduleText_declaresAll rfl emitted⟩

end Emit

end ScriptToC
