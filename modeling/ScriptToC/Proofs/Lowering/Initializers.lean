import Mathlib.Data.List.Forall2
import ScriptToC.Proofs.Lowering.Parts

/-!
# Variables and their initializers

The variables that a script declares, in the order of its text (`declaredIn`), stand one by one for
those that are declared in the module it becomes (`pairs_declaredIn`). A variable keeps its name,
and one that is initialized is recorded with the type of its annotation, if that has a meaning, and
else with the type of its initializer (`State.Initializes`). The annotation itself is not kept, so
this is said of pairs of a variable of the script and one of the module.
-/

set_option autoImplicit false

namespace ScriptToC

/-! ## The variables of a script -/

namespace Source

/-- The variables that the start of a `for` loop declares. -/
def startDeclarators : Option ForInit → List Declarator
  | some (.declare declarators) => declarators
  | _ => []

/-- The variables that a loop over a collection declares. -/
def ForLeft.declarators : ForLeft → List Declarator
  | declare _ declarators => declarators
  | target _ => []

mutual

/-- The variables that are declared in a statement. -/
def Stmt.declarators : Stmt → List Declarator
  | .declaration _ declarators => declarators
  | .ifThen _ _ body | .whileLoop _ _ body | .doLoop _ body _ => body.declarators
  | .ifElse _ _ body otherwise => body.declarators ++ otherwise.declarators
  | .forLoop _ init _ _ body => startDeclarators init ++ body.declarators
  | .forOf _ _ left _ body | .forIn _ left _ body => left.declarators ++ body.declarators
  | .switchOn _ _ cases => caseDeclarators cases
  | .block _ body => rowDeclarators body
  | .expression .. | .returnStmt .. | .breakStmt .. | .continueStmt .. | .emptyStmt _
  | .importFrom .. | .typeOnly _ | .odd .. => []

/-- The variables that are declared in statements in a row. -/
def rowDeclarators : List Stmt → List Declarator
  | [] => []
  | first :: rest => first.declarators ++ rowDeclarators rest

/-- The variables that are declared in the clauses of a `switch`. -/
def caseDeclarators : List (Case Stmt) → List Declarator
  | [] => []
  | ⟨_, body⟩ :: rest => rowDeclarators body ++ caseDeclarators rest

end

namespace Item

/-- The variables that are declared in an item that is a function. -/
def functionDeclarators : Item → List Declarator
  | function f => f.body.elim [] rowDeclarators
  | _ => []

/-- The variables that are declared in an item that belongs to the main program. -/
def mainDeclarators : Item → List Declarator
  | exportedVariables _ declarators => declarators
  | statement s => s.declarators
  | _ => []

end Item

/-- The variables that are declared in a script, those of its functions first. -/
def declaredIn (script : Program) : List Declarator :=
  script.flatMap Item.functionDeclarators ++ script.flatMap Item.mainDeclarators

end Source

/-! ## The variables of a module -/

namespace Ir

/-- The variable that a part declares in a statement. -/
def Part.declarator? : Part → Option Declarator
  | declarator d => some d
  | _ => none

/-- The variables that are declared among some parts. -/
def declaratorsOf (parts : List Part) : List Declarator :=
  parts.filterMap Part.declarator?

@[simp] theorem declaratorsOf_stmt (s : Stmt) (parts : List Part) :
    declaratorsOf (.stmt s :: parts) = declaratorsOf parts :=
  rfl

@[simp] theorem declaratorsOf_append (parts others : List Part) :
    declaratorsOf (parts ++ others) = declaratorsOf parts ++ declaratorsOf others :=
  List.filterMap_append

mutual

/-- An expression declares no variable. -/
@[simp] theorem declaratorsOf_expr : ∀ e : Expr, declaratorsOf e.parts = []
  | .number .. | .string .. | .bool .. | .null _ | .ident .. => rfl
  | .paren _ inner => declaratorsOf_expr inner
  | .array _ elements => declaratorsOf_list elements
  | .object _ properties => declaratorsOf_properties properties
  | .member _ object _ => declaratorsOf_expr object
  | .unary _ _ arg => declaratorsOf_expr arg
  | .update _ _ _ target => declaratorsOf_expr target
  | .index _ first second | .binary _ _ first second | .logical _ _ first second
  | .assign _ _ first second => by
      change declaratorsOf (first.parts ++ second.parts) = []
      rw [declaratorsOf_append, declaratorsOf_expr first, declaratorsOf_expr second,
        List.append_nil]
  | .call _ callee args => by
      change declaratorsOf (callee.parts ++ listParts args) = []
      rw [declaratorsOf_append, declaratorsOf_expr callee, declaratorsOf_list args, List.append_nil]
  | .conditional _ test yes no => by
      change declaratorsOf (test.parts ++ yes.parts ++ no.parts) = []
      simp only [declaratorsOf_append, declaratorsOf_expr test, declaratorsOf_expr yes,
        declaratorsOf_expr no, List.append_nil]

theorem declaratorsOf_list : ∀ list : List Expr, declaratorsOf (listParts list) = []
  | [] => rfl
  | e :: rest => by
      rw [listParts, declaratorsOf_append, declaratorsOf_expr e, declaratorsOf_list rest,
        List.append_nil]

theorem declaratorsOf_properties : ∀ list : List (String × Expr),
    declaratorsOf (propertyParts list) = []
  | [] => rfl
  | (_, e) :: rest => by
      rw [propertyParts, declaratorsOf_append, declaratorsOf_expr e, declaratorsOf_properties rest,
        List.append_nil]

end

@[simp] theorem declaratorsOf_part (part : Option Expr) : declaratorsOf (partsOf part) = [] := by
  cases part with
  | none => rfl
  | some e => exact declaratorsOf_expr e

@[simp] theorem declaratorsOf_declarators (declarators : List Declarator) :
    declaratorsOf (declarators.flatMap Declarator.parts) = declarators := by
  induction declarators with
  | nil => rfl
  | cons d rest ih =>
    rw [List.flatMap_cons, declaratorsOf_append, ih]
    exact congrArg (d :: · ++ rest) (declaratorsOf_part d.init)

end Ir

namespace Lowering

open Source
open Ir (Part)

variable {declared : Declared} {before middle after : State}
variable {sources sources' : List Declarator} {parts others : List Part}

/-! ## Pairs of variables -/

namespace State

/-- A variable of the module stands for one of the script. -/
structure Initializes (declared : Declared) (state : State) (source : Declarator)
    (d : Ir.Declarator) : Prop where
  named : source.name = some d.name
  known : d.node.id < state.next
  initialized : ∀ init ∈ d.init, source.init.isSome = true ∧ init.id < state.next ∧
    state.types.find? d.node.id = some ((annotated? declared source).getD (state.typeOf init.id))

/-- The variables that are declared among the parts stand for those of the script, one by one. -/
def Pairs (declared : Declared) (state : State) (sources : List Declarator) (parts : List Part) :
    Prop :=
  List.Forall₂ (state.Initializes declared) sources (Ir.declaratorsOf parts)

theorem Initializes.grows {source : Declarator} {d : Ir.Declarator}
    (initializes : before.Initializes declared source d) (grows : before.Grows after) :
    after.Initializes declared source d where
  named := initializes.named
  known := Nat.lt_of_lt_of_le initializes.known grows.next
  initialized := by
    intro init isInit
    obtain ⟨there, small, typed⟩ := initializes.initialized init isInit
    refine ⟨there, Nat.lt_of_lt_of_le small grows.next, ?_⟩
    rw [grows.typed initializes.known, typed, typeOf, typeOf, grows.typed small]

namespace Pairs

theorem grows (pairs : before.Pairs declared sources parts) (grows : before.Grows after) :
    after.Pairs declared sources parts :=
  pairs.imp fun _ _ initializes => initializes.grows grows

theorem append (pairs : before.Pairs declared sources parts) (grows : before.Grows after)
    (pairs' : after.Pairs declared sources' others) :
    after.Pairs declared (sources ++ sources') (parts ++ others) := by
  rw [Pairs, Ir.declaratorsOf_append]
  exact List.rel_append (pairs.grows grows) pairs'

/-- Parts that declare no variable do not matter. -/
theorem of_eq (pairs : before.Pairs declared sources parts)
    (same : Ir.declaratorsOf others = Ir.declaratorsOf parts) :
    before.Pairs declared sources others := by
  rw [Pairs, same]
  exact pairs

theorem nil (none : Ir.declaratorsOf parts = []) : before.Pairs declared [] parts := by
  rw [Pairs, none]
  exact .nil

end Pairs
end State

/-! ## Statements -/

theorem LowersDeclarators.pairs {declarators : List Declarator} {list : List Ir.Declarator}
    (lowers : LowersDeclarators declared declarators before list after) :
    List.Forall₂ (after.Initializes declared) declarators list := by
  induction lowers with
  | nil => exact .nil
  | @cons source _ name _ middle _ _ _ named start others ih =>
    refine .cons (State.Initializes.grows ⟨named, Nat.lt_succ_self _, ?_⟩ others.grows) ih
    rintro init ⟨⟩
    obtain ⟨e, there, first⟩ := lowersPart_some start
    have small : init.id < middle.next := (first.makes.fresh _ init.expr_mem_parts).2
    refine ⟨by rw [there]; rfl, Nat.lt_succ_of_lt small, ?_⟩
    have grows := middle.grows_declare name
      ((annotated? declared source).getD (middle.typeOf init.id))
    refine ((TypeTable.find?_insert _ _ _ _).trans (if_pos rfl)).trans ?_
    exact congrArg (fun type => some ((annotated? declared source).getD type))
      (grows.typeOf_eq small).symm

theorem LowersForLeft.pairs {element : CType} {left : ForLeft} {result : Ir.ForBinding}
    (lowers : LowersForLeft declared element left before result after) :
    after.Pairs declared left.declarators result.parts := by
  cases lowers with
  | declare _ named => exact .cons ⟨named, Nat.lt_succ_self _, by rintro _ ⟨⟩⟩ .nil
  | target => exact .nil (Ir.declaratorsOf_expr _)

theorem LowersStart.pairs {init : Option ForInit} {result : Option Ir.ForInit}
    (lowers : LowersStart declared init before result after) :
    after.Pairs declared (startDeclarators init) (Ir.startParts result) := by
  cases lowers with
  | none => exact .nil rfl
  | declare declares =>
    rw [State.Pairs, Ir.startParts, Ir.declaratorsOf_declarators]
    exact declares.pairs
  | evaluate => exact .nil (Ir.declaratorsOf_expr _)

mutual

/-- The variables of a statement stand for those that are declared in it. -/
theorem LowersStmt.pairs : ∀ {s : Stmt} {before after : State} {result : Ir.Stmt},
    LowersStmt declared s before result after →
      after.Pairs declared s.declarators result.parts
  | _, _, _, _, @LowersStmt.declaration _ _ _ _ _ list declares => by
      have pairs := declares.pairs
      rw [← Ir.declaratorsOf_declarators list] at pairs
      exact State.Pairs.grows pairs (State.grows_taken _)
  | _, _, _, _, .ifThen _ inside | _, _, _, _, .whileLoop _ inside =>
    (inside.pairs.grows (State.grows_placed _ _)).of_eq (by simp [Ir.Stmt.parts])
  | _, _, _, _, .ifElse _ yes no => by
      have later := (State.grows_leave _ _).trans no.grows
      have both := yes.pairs.append later no.pairs
      exact (both.grows (State.grows_placed _ _)).of_eq (by simp [Ir.Stmt.parts])
  | _, _, _, _, .doLoop inside tail => by
      have later := (State.grows_leave _ _).trans tail.grows
      have body := inside.pairs.grows later
      exact (body.grows (State.grows_taken _)).of_eq (by simp [Ir.Stmt.parts])
  | _, _, _, _, .forLoop start head step inside => by
      have later := (head.grows.trans step.grows).trans inside.grows
      have both := start.pairs.append later inside.pairs
      exact (both.grows ((State.grows_leave _ _).trans (State.grows_placed _ _))).of_eq
        (by simp [Ir.Stmt.parts])
  | _, _, _, _, .forOf _ head inside | _, _, _, _, .forIn _ head inside => by
      have both := head.pairs.append inside.grows inside.pairs
      exact (both.grows ((State.grows_leave _ _).trans (State.grows_placed _ _))).of_eq
        (by simp [Ir.Stmt.parts])
  | _, _, _, _, .switchOn _ each =>
    (each.pairs.grows (State.grows_placed _ _)).of_eq (by simp [Ir.Stmt.parts])
  | _, _, _, _, .block all => all.pairs.grows (State.grows_placed _ _)
  | _, _, _, _, .expression _ | _, _, _, _, .returnStmt _ => .nil (by simp [Ir.Stmt.parts])
  | _, _, _, _, .breakStmt .. | _, _, _, _, .continueStmt .. | _, _, _, _, .emptyStmt ..
  | _, _, _, _, .importFrom .. => .nil rfl

theorem LowersStmts.pairs : ∀ {body : List Stmt} {before after : State} {result : List Ir.Stmt},
    LowersStmts declared body before result after →
      after.Pairs declared (rowDeclarators body) (Ir.rowParts result)
  | _, _, _, _, .nil _ => .nil rfl
  | _, _, _, _, .typeOnly others => others.pairs
  | _, _, _, _, .cons first others => first.pairs.append others.grows others.pairs

theorem LowersCases.pairs : ∀ {cases : List (Case Stmt)} {before after : State}
    {result : List (Ir.Clause Ir.Stmt)}, LowersCases declared cases before result after →
      after.Pairs declared (caseDeclarators cases) (Ir.clauseParts result)
  | _, _, _, _, .nil _ => .nil rfl
  | _, _, _, _, .cons _ inside others =>
    (inside.pairs.append others.grows others.pairs).of_eq (by simp [Ir.clauseParts])

end

/-! ## Scripts -/

theorem declaratorsOf_params (params : List Ir.Param) :
    Ir.declaratorsOf (params.map .param) = [] := by
  induction params with
  | nil => rfl
  | cons param rest ih => exact ih

/-- The variables of a function stand for those that are declared in its body. -/
theorem LowersFunction.pairs {f : Function} {result : Option Ir.Function}
    (lowers : LowersFunction declared f before result after) :
    after.Pairs declared (f.body.elim [] rowDeclarators)
      (result.toList.flatMap Ir.Function.parts) := by
  cases lowers with
  | declaration _ _ bodiless =>
    rw [bodiless]
    exact .nil rfl
  | definition _ hasBody _ _ params all =>
    rw [hasBody]
    refine (all.pairs.grows (State.grows_placed _ _)).of_eq ?_
    rw [Option.toList_some, List.flatMap_singleton, Ir.Function.parts]
    change Ir.declaratorsOf (_ ++ _) = _
    rw [Ir.declaratorsOf_append, declaratorsOf_params, List.nil_append]

/-- The variables of a module stand for those of the script, which has the same functions. -/
theorem LowersItems.pairs {items : List Item} {module : Ir.Module}
    (lowers : LowersItems declared items before module after) :
    after.Pairs declared (items.flatMap Item.functionDeclarators)
        (module.functions.flatMap Ir.Function.parts) ∧
      after.Pairs declared (items.flatMap Item.mainDeclarators) (Ir.rowParts module.topLevel) := by
  induction lowers with
  | nil => exact ⟨.nil rfl, .nil rfl⟩
  | function first others ih =>
    refine ⟨?_, ih.2⟩
    rw [List.flatMap_cons, List.flatMap_append]
    exact first.pairs.append others.grows ih.1
  | exportedVariables first others ih | statement first others ih =>
    exact ⟨ih.1, first.pairs.append others.grows ih.2⟩
  | typeOnly _ ih | interface _ ih | typeAlias _ ih => exact ih

/-- The variables of a module stand one by one for those of the script. -/
theorem pairs_declaredIn {script : Program} {module : Ir.Module}
    (run : lowerItems script declared before = .ok (module, after)) :
    after.Pairs declared (declaredIn script) module.parts := by
  obtain ⟨functions, main⟩ := (lowersItems_of_run script run).pairs
  exact functions.append (.refl after) main

end Lowering
end ScriptToC
