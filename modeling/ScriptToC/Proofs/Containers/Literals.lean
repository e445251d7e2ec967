import ScriptToC.Proofs.Containers.Stores
import ScriptToC.Proofs.Lowering.Rules

/-!
# Literals have a place

If C is emitted for a module, then each array or object literal in it is what a part assigns on its
own, a variable its initializer or an assignment statement its value, and the place that gets it has
a type that takes it. Each call of `push` adds one value to a dynamic array (`stored_of_emit`).

The variable of a loop over a collection is emitted without an initializer, so the module must not
have one there. Lowering makes none (`bare_lowerItems`).
-/

set_option autoImplicit false

namespace ScriptToC

open Ir (Part)

/-! ## Variables of loops -/

namespace Ir

/-- The variable that a loop over a collection declares has no initializer. -/
def ForBinding.Bare : ForBinding → Prop
  | declare d => d.init = none
  | target _ => True

mutual

/-- No loop over a collection initializes its variable. -/
def Stmt.Bare : Stmt → Prop
  | .ifThen _ _ ⟨_, body⟩ | .whileLoop _ _ ⟨_, body⟩ | .doLoop _ ⟨_, body⟩ _
  | .forLoop _ _ _ _ ⟨_, body⟩ | .block _ body => RowBare body
  | .ifElse _ _ ⟨_, body⟩ ⟨_, otherwise⟩ => RowBare body ∧ RowBare otherwise
  | .switchOn _ _ clauses => ClausesBare clauses
  | .forOf _ left _ body => left.Bare ∧ body.Bare
  | .forIn _ left _ ⟨_, body⟩ => left.Bare ∧ RowBare body
  | .breakStmt _ | .continueStmt _ | .emptyStmt _ | .importFrom .. | .returnStmt ..
  | .expression .. | .declaration .. => True

/-- Statements in a row. -/
def RowBare : List Stmt → Prop
  | [] => True
  | first :: rest => first.Bare ∧ RowBare rest

/-- The clauses of a `switch`. -/
def ClausesBare : List (Clause Stmt) → Prop
  | [] => True
  | ⟨_, body⟩ :: rest => RowBare body ∧ ClausesBare rest

end

/-- The loops of a module. -/
def Module.Bare (module : Module) : Prop :=
  (∀ f ∈ module.functions, RowBare f.body) ∧ RowBare module.topLevel

theorem Stmt.Bare.asBody {s : Stmt} (bare : s.Bare) : RowBare s.asBody := by
  cases s with
  | block node body => exact bare
  | _ => exact ⟨bare, trivial⟩

end Ir

namespace Lowering

open Source

variable {declared : Declared} {before after : State}

theorem LowersForLeft.bare {element : CType} {left : ForLeft} {result : Ir.ForBinding}
    (lowers : LowersForLeft declared element left before result after) : result.Bare := by
  cases lowers with
  | declare => rfl
  | target => trivial

mutual

/-- A statement that is lowered initializes no variable of a loop over a collection. -/
theorem LowersStmt.bare : ∀ {s : Stmt} {before after : State} {result : Ir.Stmt},
    LowersStmt declared s before result after → result.Bare
  | _, _, _, _, .declaration _ | _, _, _, _, .expression _ | _, _, _, _, .returnStmt _
  | _, _, _, _, .breakStmt .. | _, _, _, _, .continueStmt .. | _, _, _, _, .emptyStmt ..
  | _, _, _, _, .importFrom .. => trivial
  | _, _, _, _, .ifThen _ inside | _, _, _, _, .whileLoop _ inside
  | _, _, _, _, .doLoop inside _ | _, _, _, _, .forLoop _ _ _ inside => inside.bare.asBody
  | _, _, _, _, .ifElse _ yes no => ⟨yes.bare.asBody, no.bare.asBody⟩
  | _, _, _, _, .forOf _ head inside => ⟨head.bare, inside.bare⟩
  | _, _, _, _, .forIn _ head inside => ⟨head.bare, inside.bare.asBody⟩
  | _, _, _, _, .switchOn _ each => each.bare
  | _, _, _, _, .block all => all.bare

theorem LowersStmts.bare : ∀ {body : List Stmt} {before after : State} {result : List Ir.Stmt},
    LowersStmts declared body before result after → Ir.RowBare result
  | _, _, _, _, .nil _ => trivial
  | _, _, _, _, .typeOnly others => others.bare
  | _, _, _, _, .cons first others => ⟨first.bare, others.bare⟩

theorem LowersCases.bare : ∀ {cases : List (Case Stmt)} {before after : State}
    {result : List (Ir.Clause Ir.Stmt)},
    LowersCases declared cases before result after → Ir.ClausesBare result
  | _, _, _, _, .nil _ => trivial
  | _, _, _, _, .cons _ inside others => ⟨inside.bare, others.bare⟩

end

theorem LowersFunction.bare {f : Function} {result : Option Ir.Function}
    (lowers : LowersFunction declared f before result after) : ∀ g ∈ result, Ir.RowBare g.body := by
  cases lowers with
  | declaration => nofun
  | definition _ _ _ _ _ all =>
    rintro _ ⟨⟩
    exact all.bare

theorem LowersItems.bare {items : List Item} {module : Ir.Module}
    (lowers : LowersItems declared items before module after) : module.Bare := by
  induction lowers with
  | nil => exact ⟨List.forall_mem_nil _, trivial⟩
  | function first _ ih =>
    refine ⟨?_, ih.2⟩
    intro g member
    rcases List.mem_append.1 member with member | member
    · exact first.bare g (Option.mem_toList.1 member)
    · exact ih.1 g member
  | exportedVariables first _ ih | statement first _ ih => exact ⟨ih.1, first.bare, ih.2⟩
  | typeOnly _ ih | interface _ ih | typeAlias _ ih => exact ih

/-- No loop over a collection in a script that is lowered initializes its variable. -/
theorem bare_lowerItems {items : List Item} {module : Ir.Module}
    (run : lowerItems items declared before = .ok (module, after)) : module.Bare :=
  (lowersItems_of_run items run).bare

end Lowering

namespace Emit

open Ir

variable {σ : Setting} {types : Types} {parts others owners more : List Part}

/-! ## Places of literals -/

/-- Each literal among the parts is what one of the owners assigns on its own, to a place with a
type that takes it, and each call of `push` adds one value to a dynamic array. -/
def StoredAmong (types : Types) (owners parts : List Part) : Prop :=
  ∀ e, .expr e ∈ parts → PushesOne types e ∧
    (e.isLiteral = true → ∃ owner ∈ owners, ∃ place type,
      owner.assigns? = some ⟨place, e⟩ ∧ types place = some type ∧ type.takes e = true)

/-- Each literal among the parts is what one of them assigns on its own. -/
abbrev Stored (types : Types) (parts : List Part) : Prop :=
  StoredAmong types parts parts

theorem StoredAmong.mono (stored : StoredAmong types owners parts) (sub : owners ⊆ more) :
    StoredAmong types more parts := by
  intro e member
  obtain ⟨one, literal⟩ := stored e member
  refine ⟨one, fun isLiteral => ?_⟩
  obtain ⟨owner, isOwner, rest⟩ := literal isLiteral
  exact ⟨owner, sub isOwner, rest⟩

theorem stored_nil : StoredAmong types owners [] :=
  fun _ member => absurd member List.not_mem_nil

theorem StoredAmong.append (stored : StoredAmong types owners parts)
    (stored' : StoredAmong types owners others) : StoredAmong types owners (parts ++ others) :=
  fun e member => (List.mem_append.1 member).elim (stored e) (stored' e)

theorem Stored.append (stored : Stored types parts) (stored' : Stored types others) :
    Stored types (parts ++ others) :=
  StoredAmong.append (stored.mono (List.subset_append_left _ _))
    (stored'.mono (List.subset_append_right _ _))

/-- A part that is no expression. -/
theorem StoredAmong.cons (stored : StoredAmong types owners parts) {part : Part}
    (other : ∀ e, part ≠ .expr e) : StoredAmong types owners (part :: parts) := by
  intro e member
  rcases List.mem_cons.1 member with same | member
  · exact absurd same.symm (other e)
  · exact stored e member

theorem Stored.cons (stored : Stored types parts) {part : Part} (other : ∀ e, part ≠ .expr e) :
    Stored types (part :: parts) :=
  StoredAmong.cons (stored.mono (List.subset_cons_self _ _)) other

theorem Stored.body {statements : List Stmt} (stored : Stored types (rowParts statements))
    {braces : Option Node} : Stored types (bodyParts ⟨braces, statements⟩) := by
  cases braces with
  | none => exact stored
  | some node => exact stored.cons (Part.stmt_ne_expr _)

theorem Plain.stored (plain : Plain types parts) : StoredAmong types owners parts := by
  intro e member
  obtain ⟨noLiteral, one⟩ := plain e member
  refine ⟨one, fun isLiteral => ?_⟩
  rw [noLiteral] at isLiteral
  cases isLiteral

/-- What is assigned has a place. -/
theorem Assignable.stored {value : Expr} {owner : Part} {place : NodeId}
    (assignable : Assignable types (types place) value)
    (assigns : owner.assigns? = some ⟨place, value⟩) (isOwner : owner ∈ owners) :
    StoredAmong types owners value.parts := by
  rcases assignable with plain | ⟨inside, type, typed, takes⟩
  · exact plain.stored
  · have eq : value.parts = .expr value :: value.parts.tail := by cases value <;> rfl
    rw [eq]
    intro e member
    rcases List.mem_cons.1 member with same | member
    · cases same
      refine ⟨?_, fun _ => ⟨owner, isOwner, place, type, assigns, typed, takes⟩⟩
      cases value with
      | call => cases type <;> cases takes
      | _ => exact pushesOne_of_none rfl
    · exact inside.stored e member

/-! ## Parts of statements -/

section Parts

variable {scope : ScopeId} {w w' : Workspace}

theorem stored_expression {e : Expr} {text : String}
    (run : expr (exprText · e) σ w = (.ok text, w')) : Stored σ.types e.parts :=
  (of_expr run (plain_exprText e)).stored

theorem stored_condition {e : Expr} {text : String}
    (run : expr (condition · e) σ w = (.ok text, w')) : Stored σ.types e.parts :=
  (of_expr run (plain_condition e)).stored

theorem stored_part {part : Option Expr} {result : Option String}
    {action : Expr → Types → ExprM String}
    (each : ∀ {e w w' text}, expr (action e) σ w = (.ok text, w') → Stored σ.types e.parts)
    (run : part.mapM (fun e => expr (action e)) σ w = (.ok result, w')) :
    Stored σ.types (partsOf part) := by
  rcases mapM_option_ok.1 run with ⟨rfl, -⟩ | ⟨e, _, rfl, -, first⟩
  · exact stored_nil
  · exact each first

theorem stored_declarations : ∀ {declarators : List Declarator} {w w' : Workspace}
    {list : List Assignment}, declarations scope declarators σ w = (.ok list, w') →
      Stored σ.types (declarators.flatMap Declarator.parts)
  | [], _, _, _, _ => stored_nil
  | d :: rest, _, _, _, run => by
      simp only [declarations, bind_ok, typeOfNode_ok, pure_ok] at run
      obtain ⟨type, _, ⟨known, rfl⟩, _, _, -, _, _, init, _, _, others, -, -⟩ := run
      rw [List.flatMap_cons]
      refine Stored.append ?_ (stored_declarations others)
      rcases mapM_option_ok.1 init with ⟨none, -⟩ | ⟨e, _, some, -, run⟩
      · rw [Declarator.parts, none]
        exact Stored.cons stored_nil (Part.declarator_ne_expr d)
      · have assignable := of_expr run (assignable_assignment d.name (.some type) e)
        rw [← known] at assignable
        rw [Declarator.parts, some]
        have assigns : (Part.declarator d).assigns? = .some ⟨d.node.id, e⟩ := by
          rw [Part.assigns?, some]
          rfl
        exact StoredAmong.cons (assignable.stored assigns List.mem_cons_self)
          (Part.declarator_ne_expr d)

theorem stored_expressionStatement {node : Node} {e : Expr} {a : Assignment}
    (run : expressionStatement e σ w = (.ok a, w')) :
    Stored σ.types (Stmt.expression node e).parts := by
  unfold expressionStatement at run
  split at run
  next inner target value =>
    simp only [bind_ok, read_bind] at run
    obtain ⟨_, _, first, run⟩ := run
    have place := of_expr first (plain_placeText target)
    have assignable := of_expr run (assignable_assignment _ (σ.types target.id) value)
    have assigned : StoredAmong σ.types
        (Stmt.expression node (.assign inner none target value)).parts value.parts :=
      assignable.stored rfl List.mem_cons_self
    refine StoredAmong.cons ?_ (Part.stmt_ne_expr _)
    intro other member
    rcases List.mem_cons.1 member with same | member
    · cases same
      exact ⟨pushesOne_of_none rfl, fun isLiteral => absurd isLiteral Bool.false_ne_true⟩
    · exact StoredAmong.append place.stored assigned other member
  next =>
    simp only [bind_ok, pure_ok] at run
    obtain ⟨_, _, run, -⟩ := run
    exact Stored.cons (stored_expression run) (Part.stmt_ne_expr _)

theorem stored_binding {left : ForBinding} {target : String} (bare : left.Bare)
    (run : binding scope left σ w = (.ok target, w')) : Stored σ.types left.parts := by
  cases left with
  | declare d =>
    rw [ForBinding.parts, Declarator.parts, show d.init = none from bare]
    exact Stored.cons stored_nil (Part.declarator_ne_expr d)
  | target e =>
    rw [binding] at run
    exact (of_expr run (plain_placeText e)).stored

theorem stored_loopHead {id : NodeId} {left : ForBinding} {right : Expr}
    {head : String × String × String} (bare : left.Bare)
    (run : loopHead scope id left right σ w = (.ok head, w')) :
    Stored σ.types (right.parts ++ left.parts) := by
  simp only [loopHead, bind_ok] at run
  obtain ⟨_, _, -, _, _, -, _, _, read, _, _, bound, -⟩ := run
  exact (stored_expression read).append (stored_binding bare bound)

theorem stored_loopStart {init : Option ForInit} {result : Option (List Assignment) × String}
    (run : loopStart scope init σ w = (.ok result, w')) : Stored σ.types (startParts init) := by
  match init with
  | some (.declare declarators) =>
    simp only [loopStart, bind_ok] at run
    obtain ⟨_, _, declares, -⟩ := run
    exact stored_declarations declares
  | some (.evaluate e) =>
    simp only [loopStart, bind_ok] at run
    obtain ⟨_, _, read, -⟩ := run
    exact stored_expression read
  | none => exact stored_nil

theorem stored_label {select : Selection} {index : Nat} {test : Option Expr}
    {found : Option (String × List String)}
    (run : test.mapM (label select index) σ w = (.ok found, w')) :
    Stored σ.types (partsOf test) := by
  rcases mapM_option_ok.1 run with ⟨rfl, -⟩ | ⟨e, _, rfl, -, first⟩
  · exact stored_nil
  · rw [label, bind_ok] at first
    obtain ⟨_, _, read, -⟩ := first
    exact stored_expression read

end Parts

/-! ## Statements -/

mutual

/-- The literals in a statement that is emitted have places. -/
theorem Emits.stored : ∀ {scope : ScopeId} {s : Stmt} {w w' : Workspace} {c : CStmt}
    {xs : List Variable}, Emits σ scope s w c xs w' → s.Bare → Stored σ.types s.parts
  | _, _, _, _, _, _, .breakStmt .., _ | _, _, _, _, _, _, .continueStmt .., _
  | _, _, _, _, _, _, .emptyStmt .., _ | _, _, _, _, _, _, .importFrom _, _ =>
    Stored.cons stored_nil (Part.stmt_ne_expr _)
  | _, _, _, _, _, _, .returnStmt run, _ => by
      simp only [returned, bind_ok] at run
      obtain ⟨_, _, read, -⟩ := run
      exact Stored.cons (stored_part stored_expression read) (Part.stmt_ne_expr _)
  | _, _, _, _, _, _, .ifThen head yes, bare =>
    ((stored_condition head).append (yes.stored bare).body).cons (Part.stmt_ne_expr _)
  | _, _, _, _, _, _, .ifElse head yes no, bare => by
      refine Stored.cons ?_ (Part.stmt_ne_expr _)
      exact ((stored_condition head).append (yes.stored bare.1).body).append (no.stored bare.2).body
  | _, _, _, _, _, _, .switchOn head each, bare => by
      obtain ⟨_, _, read, -⟩ := selection_ok head
      exact ((stored_expression read).append (each.stored bare)).cons (Part.stmt_ne_expr _)
  | _, _, _, _, _, _, .whileLoop head loop, bare =>
    ((stored_condition head).append (loop.stored bare).body).cons (Part.stmt_ne_expr _)
  | _, _, _, _, _, _, .doLoop loop last, bare =>
    ((loop.stored bare).body.append (stored_condition last)).cons (Part.stmt_ne_expr _)
  | _, _, _, _, _, _, .forLoop start head step loop, bare => by
      have test := (stored_loopStart start).append (stored_part stored_condition head)
      have update := test.append (stored_part stored_expression step)
      exact (update.append (loop.stored bare).body).cons (Part.stmt_ne_expr _)
  | _, _, _, _, _, _, .forOf _ head loop, bare => by
      have inside := loop.stored (show RowBare [_] from ⟨bare.2, trivial⟩)
      rw [rowParts, rowParts, List.append_nil] at inside
      exact ((stored_loopHead bare.1 head).append inside).cons (Part.stmt_ne_expr _)
  | _, _, _, _, _, _, .forIn _ _ head loop, bare =>
    ((stored_loopHead bare.1 head).append (loop.stored bare.2).body).cons (Part.stmt_ne_expr _)
  | _, _, _, _, _, _, .expression run, _ => stored_expressionStatement run
  | _, _, _, _, _, _, .block inner, bare => (inner.stored bare).cons (Part.stmt_ne_expr _)
  | _, _, _, _, _, _, .declaration run, _ => (stored_declarations run).cons (Part.stmt_ne_expr _)

theorem EmitsAll.stored : ∀ {scope : ScopeId} {body : List Stmt} {w w' : Workspace}
    {cs : List CStmt} {xs : List Variable}, EmitsAll σ scope body w cs xs w' → RowBare body →
      Stored σ.types (rowParts body)
  | _, _, _, _, _, _, .nil .., _ => stored_nil
  | _, _, _, _, _, _, .cons first others, bare =>
    (first.stored bare.1).append (others.stored bare.2)

theorem EmitsBlock.stored : ∀ {scope : ScopeId} {body : List Stmt} {w w' : Workspace}
    {b : Block CStmt}, EmitsBlock σ scope body w b w' → RowBare body →
      Stored σ.types (rowParts body)
  | _, _, _, _, _, .intro _ all _, bare => all.stored bare

theorem EmitsHoisted.stored : ∀ {scope : ScopeId} {body : List Stmt} {w w' : Workspace}
    {cs : List CStmt} {xs : List Variable}, EmitsHoisted σ scope body w cs xs w' → RowBare body →
      Stored σ.types (rowParts body)
  | _, _, _, _, _, _, .intro _ all _, bare => all.stored bare

theorem EmitsClauses.stored : ∀ {scope : ScopeId} {select : Selection} {index : Nat}
    {list : List (Clause Stmt)} {w w' : Workspace} {comparisons : List String}
    {cases : List CStmt} {xs : List Variable},
    EmitsClauses σ scope select index list w comparisons cases xs w' → ClausesBare list →
      Stored σ.types (clauseParts list)
  | _, _, _, _, _, _, _, _, _, .nil .., _ => stored_nil
  | _, _, _, _, _, _, _, _, _, .cons head first others, bare => by
      exact ((stored_label head).append (first.stored bare.1)).append (others.stored bare.2)

end

/-! ## Modules -/

theorem stored_params (params : List Param) {f : Function} (stored : Stored types parts) :
    Stored types (.function f :: (params.map .param ++ parts)) := by
  refine Stored.cons (Stored.append ?_ stored) (Part.function_ne_expr f)
  intro e member
  obtain ⟨_, -, absurd⟩ := List.mem_map.1 member
  cases absurd

theorem stored_functions : ∀ {list : List Function} {gs : List CFunction} {w w' : Workspace},
    functions list σ w = (.ok gs, w') → (∀ f ∈ list, RowBare f.body) →
      Stored σ.types (list.flatMap Function.parts)
  | [], _, _, _, _, _ => stored_nil
  | f :: rest, _, _, _, run, bare => by
      simp only [functions, bind_ok] at run
      obtain ⟨_, _, first, _, _, others, -⟩ := run
      obtain ⟨_, _, _, -, all, -⟩ := emits_functionBody first
      obtain ⟨bare, bares⟩ := List.forall_mem_cons.1 bare
      rw [List.flatMap_cons]
      exact (stored_params f.params (all.stored bare)).append (stored_functions others bares)

/-- **Literals have a place.** If C is emitted for a module, each array or object literal is what a
part of it assigns on its own, to a place with a type that takes it, and each call of `push` adds
one value to a dynamic array. -/
theorem stored_of_emit {module : Module} {reserved : List String} {text : String}
    (bare : module.Bare) (emitted : module.emit σ reserved = .ok text) :
    Stored σ.types module.parts := by
  rw [Module.emit] at emitted
  generalize eq : moduleText module σ _ = result at emitted
  obtain ⟨_, w'⟩ := result
  subst emitted
  rw [moduleText, bind_ok] at eq
  obtain ⟨file, _, run, -⟩ := eq
  simp only [program, bind_ok] at run
  obtain ⟨_, _, each, _, _, last, -⟩ := run
  obtain ⟨_, _, _, -, all, -⟩ := emits_functionBody last
  exact (stored_functions each bare.1).append (all.stored bare.2)

end Emit

end ScriptToC
