import ScriptToC.Proofs.Emission.Requests
import ScriptToC.Proofs.Hoisting.Capture
import ScriptToC.Proofs.Lowering.Parts

/-!
# Invented names and the names of a script

Emission is told the names that lowering mentions, and invents others. Lowering mentions every name
that it puts into a module, and the names that the script imports, which leave no trace in the
module. So no invented name is a name of the script, and as the nodes of a module are different,
no two statements have an invented name in common (`invented_apart`).
-/

set_option autoImplicit false

namespace ScriptToC

/-! ## Names of a script -/

/-- The names that a module introduces or uses: of functions, parameters, variables and
identifiers. -/
def Ir.Module.names (module : Ir.Module) : List String :=
  module.parts.filterMap Ir.Part.name?

namespace Source

mutual

/-- The names that a statement imports. -/
def Stmt.imports : Stmt → List String
  | .importFrom _ names _ => names
  | .ifThen _ _ body | .whileLoop _ _ body | .doLoop _ body _ | .forLoop _ _ _ _ body
  | .forOf _ _ _ _ body | .forIn _ _ _ body => body.imports
  | .ifElse _ _ body otherwise => body.imports ++ otherwise.imports
  | .switchOn _ _ cases => caseImports cases
  | .block _ body => rowImports body
  | .declaration .. | .expression .. | .returnStmt .. | .breakStmt .. | .continueStmt ..
  | .emptyStmt _ | .typeOnly _ | .odd .. => []

/-- The names that statements in a row import. -/
def rowImports : List Stmt → List String
  | [] => []
  | first :: rest => first.imports ++ rowImports rest

/-- The names that the clauses of a `switch` import. -/
def caseImports : List (Case Stmt) → List String
  | [] => []
  | ⟨_, body⟩ :: rest => rowImports body ++ caseImports rest

end

/-- The names that an item imports. -/
def Item.imports : Item → List String
  | .statement s => s.imports
  | .function f => f.body.elim [] rowImports
  | _ => []

/-- The names that a script imports. -/
def Program.imports (script : Program) : List String :=
  script.flatMap Item.imports

end Source

namespace Lowering

open Source

/-! ## Imports are mentioned -/

variable {declared : Declared} {before after : State}

theorem State.subset_mentions (names : List String) (state : State) :
    names ⊆ (names.foldl State.mention state).mentioned := by
  induction names generalizing state with
  | nil => exact List.nil_subset _
  | cons first rest ih =>
    refine List.cons_subset.2 ⟨?_, ih (state.mention first)⟩
    exact (State.grows_mentions rest (state.mention first)).mentioned List.mem_cons_self

/-- What was imported before stays mentioned. -/
theorem State.Grows.append_subset (grows : before.Grows after) {names names' : List String}
    (first : names ⊆ before.mentioned) (others : names' ⊆ after.mentioned) :
    names ++ names' ⊆ after.mentioned :=
  List.append_subset.2 ⟨fun _ member => grows.mentioned (first member), others⟩

mutual

/-- Lowering a statement mentions what it imports. -/
theorem LowersStmt.imports : ∀ {s : Stmt} {before after : State} {result : Ir.Stmt},
    LowersStmt declared s before result after → s.imports ⊆ after.mentioned
  | _, _, _, _, .importFrom _ names _ state => state.subset_mentions names
  | _, _, _, _, .ifThen _ inside | _, _, _, _, .whileLoop _ inside
  | _, _, _, _, .forLoop _ _ _ inside | _, _, _, _, .forOf _ _ inside
  | _, _, _, _, .forIn _ _ inside => inside.imports
  | _, _, _, _, .doLoop inside tail => fun _ member => tail.grows.mentioned (inside.imports member)
  | _, _, _, _, .ifElse _ yes no => no.grows.append_subset yes.imports no.imports
  | _, _, _, _, .switchOn _ each => each.imports
  | _, _, _, _, .block all => all.imports
  | _, _, _, _, .declaration _ | _, _, _, _, .expression _ | _, _, _, _, .returnStmt _
  | _, _, _, _, .breakStmt .. | _, _, _, _, .continueStmt .. | _, _, _, _, .emptyStmt .. =>
    List.nil_subset _

theorem LowersStmts.imports : ∀ {body : List Stmt} {before after : State} {result : List Ir.Stmt},
    LowersStmts declared body before result after → rowImports body ⊆ after.mentioned
  | _, _, _, _, .nil _ => List.nil_subset _
  | _, _, _, _, .typeOnly others => others.imports
  | _, _, _, _, .cons first others => others.grows.append_subset first.imports others.imports

theorem LowersCases.imports : ∀ {cases : List (Case Stmt)} {before after : State}
    {result : List (Ir.Clause Ir.Stmt)},
    LowersCases declared cases before result after → caseImports cases ⊆ after.mentioned
  | _, _, _, _, .nil _ => List.nil_subset _
  | _, _, _, _, .cons _ inside others => others.grows.append_subset inside.imports others.imports

end

theorem LowersFunction.imports {f : Function} {result : Option Ir.Function}
    (lowers : LowersFunction declared f before result after) :
    f.body.elim [] rowImports ⊆ after.mentioned := by
  cases lowers with
  | declaration _ _ bodiless =>
    rw [bodiless]
    exact List.nil_subset _
  | definition _ hasBody _ _ _ all =>
    rw [hasBody]
    exact all.imports

theorem LowersItems.imports {items : List Item} {module : Ir.Module}
    (lowers : LowersItems declared items before module after) :
    items.flatMap Item.imports ⊆ after.mentioned := by
  induction lowers with
  | nil => exact List.nil_subset _
  | function first others ih => exact others.grows.append_subset first.imports ih
  | exportedVariables _ _ ih | typeOnly _ ih | interface _ ih | typeAlias _ ih => exact ih
  | statement first others ih => exact others.grows.append_subset first.imports ih

/-- A step that mentions the names, if it succeeds. -/
def Telling {α : Type} (names : List String) (m : LowerM α) : Prop :=
  ∀ ⦃declared : Declared⦄ ⦃before after : State⦄ ⦃a : α⦄,
    m declared before = .ok (a, after) → names ⊆ after.mentioned

/-- Lowering a script mentions what it imports. -/
theorem telling_lowerItems (items : List Item) :
    Telling (items.flatMap Item.imports) (lowerItems items) :=
  fun _ _ _ _ run => (lowersItems_of_run items run).imports

end Lowering

/-! ## Emission -/

namespace Workspace

/-- Names that were given are different from each other for good. -/
theorem Evolves.distinct {w w' : Workspace} (evolves : w.Evolves w') (distinct : w.names.Distinct) :
    w'.names.Distinct := by
  induction evolves with
  | refl => exact distinct
  | tail _ step ih =>
    cases step with
    | scopes | headers => exact ih
    | counter id => exact ih.counter id
    | temporary id hint => exact ih.temporary id hint

end Workspace

namespace Emit

theorem evolving_program (module : Ir.Module) : Evolving (program module) := by
  apply (evolving_functions module.functions).bind
  intro functions
  apply (evolving_functionBody _ _ _ _).bind
  intro main
  have got : Evolving (get : EmitM Workspace) := .of_eq fun _ _ => rfl
  apply got.bind
  intro w
  apply (evolving_expr _).bind
  intro _
  exact got.bind fun _ => evolving_pure _

end Emit

/-- **Invented names are new.** In a script that is lowered and emitted with the names that lowering
mentions reserved, whether emission succeeds or not, no name is given twice, and no given name is a
name of the module or a name that the script imports. The invented names of the file are given
names, and the loops and `switch` statements of the file have different ones. -/
theorem invented_apart {script : Source.Program} {lowered : Lowering.Lowered} {marker : String}
    {result : Except EmitError CProgram} {w : Workspace}
    (lower : Lowering.lowerProgram script = .ok lowered)
    (emit : Emit.program lowered.module ⟨lowered.types.find?, marker⟩
      { names := lowered.mentioned.foldl Names.reserve {} } = (result, w)) :
    w.names.given.Nodup ∧
      (∀ name ∈ w.names.given, name ∉ lowered.module.names ∧ name ∉ script.imports) ∧
      ∀ file, result = .ok file → file.invented.Nodup ∧ file.invented ⊆ w.names.given := by
  obtain ⟨module, state, items, rfl⟩ := Lowering.lowerProgram_ok lower
  have makes := Lowering.makes_lowerItems items
  have imports := Lowering.telling_lowerItems script items
  have evolves := (Emit.evolving_program module).evolves emit
  have apart := evolves.apart (Names.apart_reserved state.mentioned)
  have distinct := evolves.distinct (Names.distinct_reserved state.mentioned)
  refine ⟨distinct.nodup, ?_, ?_⟩
  · intro name given
    have unmentioned := apart.notMem_given given
    constructor
    · intro used
      obtain ⟨part, member, isName⟩ := List.mem_filterMap.1 used
      exact unmentioned (makes.named part member name isName)
    · intro imported
      exact unmentioned (imports imported)
  · rintro file rfl
    have answered := Emit.answered_program emit
    have different := Ir.nodup_requests state.resolved.find? makes.distinct
    exact ⟨answered.nodup distinct different, fun name member => answered.mem_given member⟩

/-- A script that imports `k`, and a function that runs twice through its parameter `i`, with a
variable `j`. -/
def loopsWithTakenNames : Source.Program :=
  [.statement (.importFrom ⟨0, 24⟩ ["k"] "ts2c-lib"),
    .function ⟨⟨25, 99⟩, some "f", [⟨⟨36, 50⟩, some "i", some (.array .boolean)⟩], false, false,
      none, some [
        .forOf ⟨54, 97⟩ false (.declare ⟨59, 66⟩ [⟨⟨65, 66⟩, some "j", none, none⟩])
          (.ident ⟨70, 71⟩ "i")
          (.forOf ⟨73, 97⟩ false (.target (.ident ⟨78, 79⟩ "j")) (.ident ⟨83, 84⟩ "i")
            (.block ⟨86, 97⟩ []))]⟩]

/-- The counters of the two loops pass over the names that are taken. -/
theorem invented_apart_loopsWithTakenNames : ∃ lowered file w,
    Lowering.lowerProgram loopsWithTakenNames = .ok lowered ∧
      Emit.program lowered.module ⟨lowered.types.find?, "ts2c"⟩
        { names := lowered.mentioned.foldl Names.reserve {} } = (.ok file, w) ∧
      file.invented = ["l", "m"] ∧
      w.names.given.Nodup ∧
      (∀ name ∈ w.names.given,
        name ∉ lowered.module.names ∧ name ∉ loopsWithTakenNames.imports) ∧
      ∀ other, (.ok file : Except EmitError CProgram) = .ok other →
        other.invented.Nodup ∧ other.invented ⊆ w.names.given := by
  have counters : (emitted? loopsWithTakenNames "ts2c").any (fun done =>
      done.2.invented = ["l", "m"]) = true := by decide +kernel
  obtain ⟨⟨lowered, file⟩, done, counters⟩ := (Option.any_eq_true _ _).1 counters
  obtain ⟨lower, w, emit⟩ := emitted?_eq_some done
  exact ⟨lowered, file, w, lower, emit, of_decide_eq_true counters, invented_apart lower emit⟩

end ScriptToC
