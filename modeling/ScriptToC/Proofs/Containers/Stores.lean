import ScriptToC.Proofs.Ir.Parts
import ScriptToC.Proofs.Runtime.Codes

/-!
# What is stored into containers

The values of array and object literals, and the arguments of calls of `push`, are stored into
arrays and dictionaries (`Ir.storesOf`). In C such literals are no expressions: an expression that
has a text contains none, and each call of `push` in it adds one value to a dynamic array
(`plain_exprText`). A literal can only be assigned, to a place with a type that takes it
(`assignable_assignment`).
-/

set_option autoImplicit false

namespace ScriptToC

/-- The type of the elements of an array or of the entries of a dictionary. -/
def CType.element? : CType → Option CType
  | array element _ _ | dict element => some element
  | _ => none

namespace Ir

/-! ## Literals and calls -/

namespace Expr

/-- The expression is an array or object literal. -/
def isLiteral : Expr → Bool
  | array .. | object .. => true
  | _ => false

/-- The values in an array or object literal. -/
def contents : Expr → List Expr
  | array _ elements => elements
  | object _ properties => properties.map (·.2)
  | _ => []

/-- The object and the arguments, if the expression is a call of `push`. -/
def pushed? : Expr → Option (Expr × List Expr)
  | call _ (member _ owner property) args => if property = "push" then some (owner, args) else none
  | _ => none

end Expr

/-- A value, and the node of the place that it is put into. -/
structure Store where
  place : NodeId
  value : Expr

namespace Part

theorem stmt_ne_expr (s : Stmt) (e : Expr) : stmt s ≠ expr e := by
  rintro ⟨⟩

theorem declarator_ne_expr (d : Declarator) (e : Expr) : declarator d ≠ expr e := by
  rintro ⟨⟩

theorem function_ne_expr (f : Function) (e : Expr) : function f ≠ expr e := by
  rintro ⟨⟩

/-- What a part assigns on its own: a variable gets its initializer, and the target of an assignment
statement its value. -/
def assigns? : Part → Option Store
  | declarator d => d.init.map fun value => ⟨d.node.id, value⟩
  | stmt (.expression _ (.assign _ none target value)) => some ⟨target.id, value⟩
  | _ => none

/-- The values that a part stores into a container: those of a literal that it assigns, or the
arguments of a call of `push`. -/
def stores : Part → List Store
  | expr e => e.pushed?.elim [] fun call => call.2.map fun value => ⟨call.1.id, value⟩
  | part => part.assigns?.elim [] fun store => store.value.contents.map fun value =>
      ⟨store.place, value⟩

end Part

/-- The values that are stored into containers among the parts. -/
def storesOf (parts : List Part) : List Store :=
  parts.flatMap Part.stores

/-! ## What stands in a statement -/

mutual

/-- An expression consists of expressions. -/
theorem Expr.stmt_not_mem_parts : ∀ (e : Expr) (s : Stmt), .stmt s ∉ e.parts
  | .number .., _ | .string .., _ | .bool .., _ | .null _, _ | .ident .., _ => by simp [Expr.parts]
  | .paren _ inner, s | .member _ inner _, s | .unary _ _ inner, s | .update _ _ _ inner, s => by
      simp [Expr.parts, inner.stmt_not_mem_parts s]
  | .array _ elements, s => by simp [Expr.parts, stmt_not_mem_listParts elements s]
  | .object _ properties, s => by simp [Expr.parts, stmt_not_mem_propertyParts properties s]
  | .index _ first second, s | .binary _ _ first second, s | .logical _ _ first second, s
  | .assign _ _ first second, s => by
      simp [Expr.parts, first.stmt_not_mem_parts s, second.stmt_not_mem_parts s]
  | .call _ callee args, s => by
      simp [Expr.parts, callee.stmt_not_mem_parts s, stmt_not_mem_listParts args s]
  | .conditional _ test yes no, s => by
      simp [Expr.parts, test.stmt_not_mem_parts s, yes.stmt_not_mem_parts s,
        no.stmt_not_mem_parts s]

theorem stmt_not_mem_listParts : ∀ (list : List Expr) (s : Stmt), .stmt s ∉ listParts list
  | [], _ => List.not_mem_nil
  | e :: rest, s => by
      simp [listParts, e.stmt_not_mem_parts s, stmt_not_mem_listParts rest s]

theorem stmt_not_mem_propertyParts : ∀ (list : List (String × Expr)) (s : Stmt),
    .stmt s ∉ propertyParts list
  | [], _ => List.not_mem_nil
  | (_, e) :: rest, s => by
      simp [propertyParts, e.stmt_not_mem_parts s, stmt_not_mem_propertyParts rest s]

end

/-- The expression of each expression statement among the parts is one of them. -/
def Closed (parts : List Part) : Prop :=
  ∀ node e, .stmt (.expression node e) ∈ parts → .expr e ∈ parts

section Closed

variable {parts others : List Part}

theorem closed_nil : Closed [] :=
  fun _ _ => nofun

theorem Closed.append (closed : Closed parts) (closed' : Closed others) :
    Closed (parts ++ others) := by
  intro node e member
  rcases List.mem_append.1 member with member | member
  · exact List.mem_append_left _ (closed node e member)
  · exact List.mem_append_right _ (closed' node e member)

theorem Closed.cons (closed : Closed parts) {part : Part}
    (other : ∀ node e, part ≠ .stmt (.expression node e)) : Closed (part :: parts) := by
  intro node e member
  rcases List.mem_cons.1 member with same | member
  · exact absurd same.symm (other node e)
  · exact List.mem_cons_of_mem _ (closed node e member)

theorem Closed.body {statements : List Stmt} (closed : Closed (rowParts statements))
    (braces : Option Node) : Closed (bodyParts ⟨braces, statements⟩) := by
  cases braces with
  | none => exact closed
  | some node => exact closed.cons nofun

theorem closed_expr (e : Expr) : Closed e.parts :=
  fun _ _ member => absurd member (e.stmt_not_mem_parts _)

theorem closed_partsOf (part : Option Expr) : Closed (partsOf part) := by
  cases part with
  | none => exact closed_nil
  | some e => exact closed_expr e

theorem closed_declarators (declarators : List Declarator) :
    Closed (declarators.flatMap Declarator.parts) := by
  induction declarators with
  | nil => exact closed_nil
  | cons d rest ih => exact Closed.append (Closed.cons (closed_partsOf d.init) nofun) ih

theorem closed_startParts (init : Option ForInit) : Closed (startParts init) := by
  match init with
  | none => exact closed_nil
  | some (.declare declarators) => exact closed_declarators declarators
  | some (.evaluate e) => exact closed_expr e

theorem closed_left (left : ForBinding) : Closed left.parts := by
  cases left with
  | declare d => exact Closed.cons (closed_partsOf d.init) nofun
  | target e => exact closed_expr e

end Closed

mutual

theorem Stmt.closed : ∀ s : Stmt, Closed s.parts
  | .breakStmt _ | .continueStmt _ | .emptyStmt _ | .importFrom .. => closed_nil.cons nofun
  | .returnStmt _ value => Closed.cons (closed_partsOf value) nofun
  | .ifThen _ test ⟨braces, body⟩ | .whileLoop _ test ⟨braces, body⟩ =>
    ((closed_expr test).append ((closed_row body).body braces)).cons nofun
  | .ifElse _ test ⟨braces, body⟩ ⟨braces', otherwise⟩ =>
    (((closed_expr test).append ((closed_row body).body braces)).append
      ((closed_row otherwise).body braces')).cons nofun
  | .switchOn _ discriminant clauses =>
    ((closed_expr discriminant).append (closed_clauses clauses)).cons nofun
  | .doLoop _ ⟨braces, body⟩ test =>
    (((closed_row body).body braces).append (closed_expr test)).cons nofun
  | .forLoop _ init test update ⟨braces, body⟩ =>
    ((((closed_startParts init).append (closed_partsOf test)).append
      (closed_partsOf update)).append ((closed_row body).body braces)).cons nofun
  | .forOf _ left right body =>
    (((closed_expr right).append (closed_left left)).append body.closed).cons nofun
  | .forIn _ left right ⟨braces, body⟩ =>
    (((closed_expr right).append (closed_left left)).append
      ((closed_row body).body braces)).cons nofun
  | .expression _ e => by
      intro node other member
      rcases List.mem_cons.1 member with same | member
      · cases same
        exact List.mem_cons_of_mem _ e.expr_mem_parts
      · exact absurd member (e.stmt_not_mem_parts _)
  | .block _ body => (closed_row body).cons nofun
  | .declaration _ declarators => (closed_declarators declarators).cons nofun

theorem closed_row : ∀ body : List Stmt, Closed (rowParts body)
  | [] => closed_nil
  | first :: rest => first.closed.append (closed_row rest)

theorem closed_clauses : ∀ clauses : List (Clause Stmt), Closed (clauseParts clauses)
  | [] => closed_nil
  | ⟨test, body⟩ :: rest =>
    ((closed_partsOf test).append (closed_row body)).append (closed_clauses rest)

end

/-- The expressions of the expression statements of a module are parts of it. -/
theorem Module.closed (module : Module) : Closed module.parts := by
  refine Closed.append ?_ (closed_row module.topLevel)
  induction module.functions with
  | nil => exact closed_nil
  | cons f rest ih =>
    have params : Closed (f.params.map .param) := by
      intro node e member
      obtain ⟨_, -, absurd⟩ := List.mem_map.1 member
      cases absurd
    exact Closed.append (Closed.cons (params.append (closed_row f.body)) nofun) ih

end Ir

/-- A place of this type takes the literal: an array one of arrays, which fits into it if it is
fixed, and a dictionary one of objects. -/
def CType.takes : CType → Ir.Expr → Bool
  | array _ capacity dynamic, .array _ elements => dynamic || elements.length ≤ capacity
  | dict _, .object .. => true
  | _, _ => false

/-- What is taken is an array literal by an array, or an object literal by a dictionary. -/
theorem CType.exists_of_takes {type : CType} {e : Ir.Expr} (takes : type.takes e = true) :
    (∃ node elements element capacity dynamic,
        e = .array node elements ∧ type = .array element capacity dynamic) ∨
      ∃ node properties element, e = .object node properties ∧ type = .dict element := by
  unfold CType.takes at takes
  split at takes
  · exact .inl ⟨_, _, _, _, _, rfl, rfl⟩
  · exact .inr ⟨_, _, _, rfl, rfl⟩
  · cases takes

namespace Emit

open Ir

variable {types : Types} {parts others owners : List Part} {e : Expr}

/-! ## Expressions that have a text -/

/-- If the expression is a call of `push`, it adds one value to a dynamic array. -/
def PushesOne (types : Types) (e : Expr) : Prop :=
  ∀ call ∈ e.pushed?, ∃ value, call.2 = [value] ∧ (typeOf types call.1).isDynamicArray = true

/-- No expression among the parts is a literal, and each call of `push` adds one value to a dynamic
array. -/
def Plain (types : Types) (parts : List Part) : Prop :=
  ∀ e, .expr e ∈ parts → e.isLiteral = false ∧ PushesOne types e

theorem plain_nil : Plain types [] :=
  nofun

theorem Plain.append (plain : Plain types parts) (plain' : Plain types others) :
    Plain types (parts ++ others) := by
  intro e member
  exact (List.mem_append.1 member).elim (plain e) (plain' e)

theorem pushesOne_of_none (noPush : e.pushed? = none) : PushesOne types e := by
  rw [PushesOne, noPush]
  rintro _ ⟨⟩

/-- An expression that is neither a literal nor a call of `push`. -/
theorem Plain.cons (plain : Plain types parts) (noLiteral : e.isLiteral = false)
    (noPush : e.pushed? = none) : Plain types (.expr e :: parts) := by
  intro other member
  rcases List.mem_cons.1 member with same | member
  · cases same
    exact ⟨noLiteral, pushesOne_of_none noPush⟩
  · exact plain other member

theorem plain_listParts : ∀ {list : List Expr}, (∀ e ∈ list, Plain types e.parts) →
    Plain types (listParts list)
  | [], _ => plain_nil
  | e :: rest, each => by
      obtain ⟨first, others⟩ := List.forall_mem_cons.1 each
      exact first.append (plain_listParts others)

theorem plain_propertyParts : ∀ {list : List (String × Expr)}, (∀ p ∈ list, Plain types p.2.parts) →
    Plain types (propertyParts list)
  | [], _ => plain_nil
  | (_, e) :: rest, each => by
      obtain ⟨first, others⟩ := List.forall_mem_cons.1 each
      exact first.append (plain_propertyParts others)

/-- Nothing but a name has a name. -/
theorem plain_of_ident? : ∀ {e : Expr} {name : String}, e.ident? = some name → Plain types e.parts
  | .ident .., _, _ => plain_nil.cons rfl rfl
  | .paren _ inner, _, named => (plain_of_ident? (e := inner) named).cons rfl rfl

section Steps

variable {α β : Type} {P : Prop}

/-- What holds anyway holds if a step succeeds. -/
theorem gives_of {m : ExprM α} (here : P) : Gives m fun _ => P :=
  fun _ _ _ _ => here

/-- What follows from the success of a part follows from that of the whole. -/
theorem Gives.start {m : ExprM α} {next : α → ExprM β} (before : Gives m fun _ => P) :
    Gives (m >>= next) fun _ => P :=
  before.bind fun _ here => gives_of here

/-- What follows from the success of each step in a row follows from that of the row. -/
theorem Gives.each {step : α → ExprM β} {list : List α} {P : α → Prop}
    (each : ∀ a ∈ list, Gives (step a) fun _ => P a) :
    Gives (list.mapM step) fun _ => ∀ a ∈ list, P a := by
  induction list with
  | nil => exact gives_of nofun
  | cons a rest ih =>
    rw [List.mapM_cons]
    refine (each a List.mem_cons_self).bind fun _ here => Gives.start ?_
    have others := ih fun other member => each other (List.mem_cons_of_mem _ member)
    exact fun _ _ _ run => List.forall_mem_cons.2 ⟨here, others run⟩

end Steps

section Arguments

variable {es : List Expr} (each : ∀ e ∈ es, Gives (exprText types e) fun _ => Plain types e.parts)

include each

theorem plain_printText :
    Gives (printText types es (es.map (exprText types))) fun _ => Plain types (listParts es) := by
  refine (gives_needs "stdio").bind fun _ _ => Gives.start ?_
  have items : ∀ item ∈ es.zip (es.map (exprText types)),
      Gives (printedText types item.1 item.2) fun _ => Plain types item.1.parts := by
    rw [← List.map_prod_left_eq_zip]
    intro item member
    obtain ⟨e, isArg, rfl⟩ := List.mem_map.1 member
    exact Gives.start (each e isArg)
  refine fun _ _ _ run => plain_listParts fun e isArg => ?_
  have all := Gives.each items run
  rw [← List.map_prod_left_eq_zip] at all
  exact all _ (List.mem_map_of_mem isArg)

theorem plain_callText {callee : Expr} :
    Gives (callText callee (es.map (exprText types))) fun _ =>
      Plain types (callee.parts ++ listParts es) := by
  unfold callText
  split
  next => exact gives_unsupported _ _
  next name named =>
    refine Gives.start ?_
    rw [List.mapM_map]
    have args := Gives.each each
    exact fun _ _ _ run => (plain_of_ident? named).append (plain_listParts (args run))

/-- A call of a method succeeds on a dynamic array only, and `push` adds one value. -/
theorem plain_methodText {node inner : Node} {object : Expr} {name : String}
    (part : Gives (exprText types object) fun _ => Plain types object.parts) :
    Gives (methodText types node object name (exprText types object) (es.map (exprText types)))
      fun _ => Plain types (.expr (.call node (.member inner object name) es) ::
        .expr (.member inner object name) :: (object.parts ++ listParts es)) := by
  unfold methodText
  dsimp only
  split
  next isDynamic =>
    refine part.bind fun _ plain => ?_
    have whole (args : Plain types (listParts es)) (one : name = "push" → ∃ value, es = [value]) :
        Plain types (.expr (.call node (.member inner object name) es) ::
          .expr (.member inner object name) :: (object.parts ++ listParts es)) := by
      have inside := (plain.append args).cons (e := .member inner object name) rfl rfl
      intro e member
      rcases List.mem_cons.1 member with same | member
      · cases same
        refine ⟨rfl, fun call isCall => ?_⟩
        rw [Expr.pushed?] at isCall
        split at isCall
        next isPush =>
          cases isCall
          obtain ⟨value, eq⟩ := one isPush
          exact ⟨value, eq, isDynamic⟩
        next => cases isCall
      · exact inside e member
    split
    next value eq =>
      obtain ⟨arg, rfl, rfl⟩ := List.map_eq_singleton_iff.1 eq
      refine (each arg List.mem_cons_self).bind fun _ here => gives_of ?_
      exact whole (here.append plain_nil) fun _ => ⟨arg, rfl⟩
    next eq =>
      rw [List.map_eq_nil_iff] at eq
      subst eq
      exact gives_of (whole plain_nil (by simp))
    · exact gives_unsupported _ _
  next => exact gives_unsupported _ _

end Arguments

mutual

/-- An expression that has a text contains no literal. -/
theorem plain_exprText : ∀ e : Expr, Gives (exprText types e) fun _ => Plain types e.parts
  | .number .. | .string .. | .bool .. | .null _ | .ident .. => gives_of (plain_nil.cons rfl rfl)
  | .paren _ inner => by
      rw [exprText]
      exact (plain_exprText inner).bind fun _ plain => gives_of (plain.cons rfl rfl)
  | .array .. | .object .. => by
      rw [exprText]
      exact gives_unsupported _ _
  | .member _ object _ => by
      rw [exprText]
      exact (plain_exprText object).bind fun _ plain => gives_of (plain.cons rfl rfl)
  | .index _ object key => by
      rw [exprText]
      refine (plain_exprText object).bind fun _ first => ?_
      exact (plain_exprText key).bind fun _ second => gives_of ((first.append second).cons rfl rfl)
  | .call _ callee args => by
      have each := plain_exprTexts args
      cases callee with
      | member inner object property =>
          rw [exprText, exprTexts_eq_map]
          split
          next isPrint =>
            have plain : Plain types object.parts := plain_of_ident? isPrint.1
            intro _ _ _ run
            refine Plain.cons ?_ rfl (by rw [Expr.pushed?, isPrint.2]; rfl)
            have object := plain.cons (e := .member inner object property) rfl rfl
            exact object.append (plain_printText each run)
          next => exact plain_methodText each (plain_exprText object)
      | _ =>
          rw [exprText, exprTexts_eq_map]
          · exact fun _ _ _ run => (plain_callText each run).cons rfl rfl
          · nofun
  | .unary _ op arg => by
      cases op with
      | not =>
          rw [exprText]
          have test : Gives (conditionText types arg (exprText types arg)) fun _ =>
              Plain types arg.parts := Gives.start (plain_exprText arg)
          exact test.bind fun _ plain => gives_of (plain.cons rfl rfl)
      | _ =>
          rw [exprText]
          exact (plain_exprText arg).bind fun _ plain => gives_of (plain.cons rfl rfl)
  | .update _ _ _ target => by
      rw [exprText]
      exact (plain_placeText target).bind fun _ plain => gives_of (plain.cons rfl rfl)
  | .binary _ _ lhs rhs => by
      rw [exprText]
      refine (plain_exprText lhs).bind fun _ left => ?_
      exact (plain_exprText rhs).bind fun _ right => gives_of ((left.append right).cons rfl rfl)
  | .logical _ _ lhs rhs => by
      rw [exprText]
      have left : Gives (conditionText types lhs (exprText types lhs)) fun _ =>
          Plain types lhs.parts := Gives.start (plain_exprText lhs)
      have right : Gives (conditionText types rhs (exprText types rhs)) fun _ =>
          Plain types rhs.parts := Gives.start (plain_exprText rhs)
      refine left.bind fun _ left => right.bind fun _ right => ?_
      exact gives_of ((left.append right).cons rfl rfl)
  | .assign _ _ target value => by
      rw [exprText]
      refine (plain_placeText target).bind fun _ left => ?_
      exact (plain_exprText value).bind fun _ right => gives_of ((left.append right).cons rfl rfl)
  | .conditional _ test yes no => by
      rw [exprText]
      have first : Gives (conditionText types test (exprText types test)) fun _ =>
          Plain types test.parts := Gives.start (plain_exprText test)
      refine first.bind fun _ first => (plain_exprText yes).bind fun _ second => ?_
      refine (plain_exprText no).bind fun _ third => gives_of ?_
      exact ((first.append second).append third).cons rfl rfl

/-- A place that has a text contains no literal. -/
theorem plain_placeText : ∀ e : Expr, Gives (placeText types e) fun _ => Plain types e.parts
  | .ident .. => gives_of (plain_nil.cons rfl rfl)
  | .paren _ inner => by
      rw [placeText]
      exact fun _ _ _ run => (plain_placeText inner run).cons rfl rfl
  | .member _ object _ => by
      rw [placeText]
      exact (plain_exprText object).bind fun _ plain => gives_of (plain.cons rfl rfl)
  | .index _ object key => by
      rw [placeText]
      refine (plain_exprText object).bind fun _ first => ?_
      exact (plain_exprText key).bind fun _ second => gives_of ((first.append second).cons rfl rfl)
  | .number .. | .string .. | .bool .. | .null _ | .array .. | .object .. | .call .. | .unary ..
  | .update .. | .binary .. | .logical .. | .assign .. | .conditional .. => by
      rw [placeText]
      · exact gives_unsupported _ _
      all_goals nofun

theorem plain_exprTexts : ∀ es : List Expr, ∀ e ∈ es,
    Gives (exprText types e) fun _ => Plain types e.parts
  | [] => nofun
  | e :: rest => List.forall_mem_cons.2 ⟨plain_exprText e, plain_exprTexts rest⟩

end

theorem plain_condition (e : Expr) : Gives (condition types e) fun _ => Plain types e.parts :=
  Gives.start (plain_exprText e)

/-! ## Literals have a place -/

/-- What may be assigned to a place of a type: an expression that has a text, or a literal that the
type takes, of values that have one. -/
def Assignable (types : Types) (type : Option CType) (value : Expr) : Prop :=
  Plain types value.parts ∨ Plain types value.parts.tail ∧ ∃ found ∈ type, found.takes value = true

/-- An assignment succeeds only if the value may be assigned. -/
theorem assignable_assignment (target : String) (type : Option CType) (value : Expr) :
    Gives (assignment types target type value) fun _ => Assignable types type value := by
  unfold assignment
  split
  next node elements element capacity dynamic =>
    split
    · exact gives_unsupported _ _
    next fits =>
      have lines : Gives (arrayLines types target element dynamic elements) fun _ =>
          Plain types (listParts elements) := by
        refine Gives.start fun _ _ _ run => plain_listParts fun e member => ?_
        have all := Gives.each (fun part _ => Gives.start (plain_exprText part.1)) run
        rw [← List.zipIdx_map_fst 0 elements] at member
        obtain ⟨part, isPart, rfl⟩ := List.mem_map.1 member
        exact all part isPart
      refine lines.bind fun _ plain => gives_of (.inr ⟨plain, _, rfl, ?_⟩)
      rw [not_and, Bool.not_eq_true'] at fits
      cases dynamic with
      | true => rfl
      | false => exact decide_eq_true (Nat.le_of_not_lt (fits rfl))
  next node properties element =>
    have lines : Gives (dictLines types target properties) fun _ =>
        Plain types (propertyParts properties) := by
      refine Gives.start fun _ _ _ run => plain_propertyParts fun property member => ?_
      exact Gives.each (fun property _ => Gives.start (plain_exprText property.2)) run _ member
    exact lines.bind fun _ plain => gives_of (.inr ⟨plain, _, rfl, rfl⟩)
  · exact gives_unsupported _ _
  · exact gives_unsupported _ _
  · exact gives_unsupported _ _
  · exact gives_unsupported _ _
  · exact (plain_exprText value).bind fun _ plain => gives_of (.inl plain)

end Emit

end ScriptToC
