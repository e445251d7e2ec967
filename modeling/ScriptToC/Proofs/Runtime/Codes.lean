import ScriptToC.Proofs.Emission.Frame
import ScriptToC.Proofs.Hoisting.Introductions
import ScriptToC.Proofs.Hoisting.Openings
import ScriptToC.Proofs.Runtime.Texts

/-!
# What the bodies of a file are made of

The texts in the C form of a statement are expressions, the lines that fill arrays and dictionaries,
and the comparisons that find the clause of a `switch`. Which ones these are, with the trees of
their expressions, can be read off the statement and the types of its nodes (`Stmt.codes`): each
text is that of a code, in order (`Emits.spells`, `spells_program`).
-/

set_option autoImplicit false

namespace ScriptToC

open Ir

/-! ## Code -/

/-- What a text in the body of a function is made of. -/
inductive Code
  | expression (tree : CExpr)
  /-- An expression that is left out in the head of a loop. -/
  | absent
  /-- A statement that consists of a call. -/
  | line (call : CExpr)
  /-- A statement that stores a value. -/
  | store (place : CExpr) (cast : String) (value : CExpr)
  /-- A comparison that finds a clause, and the index of the clause. -/
  | comparison (test : CExpr) (index : Nat)
  deriving Repr

namespace Code

/-- The text of a code. -/
def chars : Code → List Char
  | expression tree => tree.chars
  | absent => []
  | line call => call.chars ++ [';']
  | store place cast value => place.chars ++ (" = " ++ cast).toList ++ value.chars ++ [';']
  | comparison test index => test.chars ++ (" ? " ++ toString index).toList

/-- The expressions in a code. -/
def trees : Code → List CExpr
  | expression tree | line tree | comparison tree _ => [tree]
  | absent => []
  | store place _ value => [place, value]

/-- The code has this text. -/
def Spells (code : Code) (text : String) : Prop :=
  text.toList = code.chars

end Code

/-! ## Texts of C statements -/

/-- The texts of an assignment, one for each line. -/
def Assignment.lines : Assignment → List String
  | expression text => [text]
  | statements lines => lines

mutual

/-- The texts in a C statement that come from expressions and assignments. -/
def CStmt.texts : CStmt → List String
  | .breakStmt | .continueStmt | .emptyStmt | .importStmt => []
  | .returnStmt value _ => value.toList
  | .ifThen condition body | .whileLoop condition body => condition :: blockTexts body
  | .ifElse condition body otherwise => condition :: (blockTexts body ++ blockTexts otherwise)
  | .switchOn subject cases => subject :: listTexts cases
  | .switchByIndex _ comparisons cases => comparisons ++ listTexts cases
  | .clause label statements => label.toList ++ listTexts statements
  | .doLoop body condition => blockTexts body ++ [condition]
  | .forLoop declared init condition increment body =>
    (declared.getD []).flatMap Assignment.lines ++ [init, condition, increment] ++ blockTexts body
  | .forFixed _ _ collection _ target statements | .forDynamic _ collection _ target statements
  | .forKeys _ collection target statements => [collection, target] ++ listTexts statements
  | .expression e => e.lines
  | .block body => blockTexts body
  | .declaration assignments => assignments.flatMap Assignment.lines

/-- The texts in a block. -/
def blockTexts : Block CStmt → List String
  | ⟨_, statements, _⟩ => listTexts statements

/-- The texts in statements in a row. -/
def listTexts : List CStmt → List String
  | [] => []
  | first :: rest => first.texts ++ listTexts rest

end

/-- The texts in the bodies of a file. -/
def CProgram.texts (program : CProgram) : List String :=
  program.bodies.flatMap fun f => listTexts f.statements

/-! ## The codes of statements -/

namespace Emit

section Codes

variable (types : Types)

/-- A condition. -/
def conditionCode (e : Expr) : Code :=
  .expression (conditionTree types e (exprTree types e))

/-- The lines that fill an array from a literal. -/
def arrayCodes (place : CExpr) (element : CType) (dynamic : Bool) (elements : List Expr) :
    List Code :=
  let create := Code.line (.call (.name "ARRAY_CREATE")
    [place, .number (toString (max elements.length 2)), .number (toString elements.length)])
  let stores := elements.zipIdx.map fun (e, index) =>
    Code.store (.index (if dynamic then .arrow place "data" else place) (.number (toString index)))
      (if element.isArray then "(void *)" else "") (exprTree types e)
  if dynamic then create :: stores else stores

/-- The lines that fill a dictionary from a literal. -/
def dictCodes (place : CExpr) (properties : List (String × Expr)) : List Code :=
  .line (.call (.name "DICT_CREATE") [place, .number (toString (max properties.length 4))]) ::
    properties.map fun (key, e) =>
      .line (.call (.name "DICT_SET")
        [place, .literal (Text.Quoted.literal key), exprTree types e])

/-- The assignment of a value to a place of a type. -/
def assignmentCodes (place : CExpr) (type : Option CType) (value : Expr) : List Code :=
  match value, type with
  | .array _ elements, some (.array element _ dynamic) =>
    arrayCodes types place element dynamic elements
  | .object _ properties, some (.dict _) => dictCodes types place properties
  | _, _ => [.expression (.assign none place (exprTree types value))]

/-- The assignments of a declaration. -/
def declaredCodes (declarators : List Declarator) : List Code :=
  declarators.flatMap fun declarator => declarator.init.elim [] fun e =>
    assignmentCodes types (.name declarator.name) (types declarator.node.id) e

/-- An expression statement. -/
def statementCodes : Expr → List Code
  | .assign _ none target value =>
    assignmentCodes types (placeTree types target) (types target.id) value
  | e => [.expression (exprTree types e)]

/-- What a `for` loop does first. -/
def startCodes : Option ForInit → List Code
  | some (.declare declarators) => declaredCodes types declarators ++ [.absent]
  | some (.evaluate e) => [.expression (exprTree types e)]
  | none => [.absent]

/-- What each element of a collection is assigned to. -/
def bindingCode : ForBinding → Code
  | .declare declarator => .expression (.name declarator.name)
  | .target e => .expression (placeTree types e)

/-- The comparisons of a value with the tests of clauses, the first of which has the given index. -/
def comparisonCodes (discriminant : Expr) (index : Nat) : List (Clause Stmt) → List Code
  | [] => []
  | ⟨test, _⟩ :: rest =>
    (test.toList.map fun test => Code.comparison (.before (.unary .not)
      (.call (.name "strcmp") [exprTree types discriminant, exprTree types test])) index) ++
        comparisonCodes discriminant (index + 1) rest

/-- The label of a clause, which is its index if clauses are found by their index. -/
def labelCode (byIndex : Bool) (index : Nat) (test : Expr) : Code :=
  .expression (if byIndex then .number (toString index) else exprTree types test)

end Codes

end Emit

namespace Ir

open Emit

mutual

/-- The codes of a statement. -/
def Stmt.codes (types : Types) : Stmt → List Code
  | .breakStmt _ | .continueStmt _ | .emptyStmt _ | .importFrom .. => []
  | .returnStmt _ value => value.toList.map fun e => .expression (exprTree types e)
  | .ifThen _ test ⟨_, body⟩ | .whileLoop _ test ⟨_, body⟩ =>
    conditionCode types test :: rowCodes types body
  | .ifElse _ test ⟨_, body⟩ ⟨_, otherwise⟩ =>
    conditionCode types test :: (rowCodes types body ++ rowCodes types otherwise)
  | .switchOn _ discriminant clauses =>
    if ((types discriminant.id).getD .unknown).isNumber then
      .expression (exprTree types discriminant) :: clauseCodes types false 0 clauses
    else
      comparisonCodes types discriminant 0 clauses ++ clauseCodes types true 0 clauses
  | .doLoop _ ⟨_, body⟩ test => rowCodes types body ++ [conditionCode types test]
  | .forLoop _ init test update ⟨_, body⟩ =>
    startCodes types init ++ [test.elim .absent (conditionCode types),
      update.elim .absent fun e => .expression (exprTree types e)] ++ rowCodes types body
  | .forOf _ left right body =>
    [.expression (exprTree types right), bindingCode types left] ++ body.codes types
  | .forIn _ left right ⟨_, body⟩ =>
    [.expression (exprTree types right), bindingCode types left] ++ rowCodes types body
  | .expression _ e => statementCodes types e
  | .block _ body => rowCodes types body
  | .declaration _ declarators => declaredCodes types declarators

/-- The codes of statements in a row. -/
def rowCodes (types : Types) : List Stmt → List Code
  | [] => []
  | first :: rest => first.codes types ++ rowCodes types rest

/-- The codes of the clauses of a `switch`, without the comparisons that find them. -/
def clauseCodes (types : Types) (byIndex : Bool) (index : Nat) : List (Clause Stmt) → List Code
  | [] => []
  | ⟨test, body⟩ :: rest =>
    test.toList.map (labelCode types byIndex index) ++ rowCodes types body ++
      clauseCodes types byIndex (index + 1) rest

end

/-- The codes of the bodies of a module. -/
def Module.codes (types : Types) (module : Module) : List Code :=
  module.bodies.flatMap (rowCodes types)

end Ir

namespace Emit

variable {σ : Setting} {types : Types}

/-! ## Steps -/

theorem Gives.mapM {α β : Type} {step : α → ExprM β} {kind : α → β → Prop} {list : List α}
    (each : ∀ a ∈ list, Gives (step a) (kind a)) :
    Gives (list.mapM step) (List.Forall₂ kind list) := by
  induction list with
  | nil => exact gives_pure .nil
  | cons a rest ih =>
    rw [List.mapM_cons]
    refine (each a List.mem_cons_self).bind fun b here => ?_
    refine Gives.bind (ih fun other member => each other (List.mem_cons_of_mem _ member)) ?_
    intro _ there
    exact gives_pure (.cons here there)

/-- What is emitted of an expression is of the kind that its step gives. -/
theorem of_expr {α : Type} {action : Types → ExprM α} {kind : α → Prop} {a : α}
    {w w' : Workspace} (run : expr action σ w = (.ok a, w')) (gives : Gives (action σ.types) kind) :
    kind a := by
  unfold expr at run
  rcases eq : action σ.types w.headers with ⟨result, headers⟩
  rw [eq] at run
  obtain ⟨rfl, -⟩ := Prod.mk.inj run
  exact gives eq

/-! ## Assignments -/

theorem spells_line {tree : CExpr} {text : String} (spells : Spells tree text) :
    (Code.line tree).Spells (text ++ ";") := by
  rw [Code.Spells, String.toList_append, spells]
  rfl

theorem spells_store {place value : CExpr} {target text : String} (spells : Spells place target)
    (cast : String) (spells' : Spells value text) :
    (Code.store place cast value).Spells (target ++ " = " ++ cast ++ text ++ ";") := by
  rw [Spells] at spells spells'
  simp [Code.Spells, Code.chars, spells, spells']

theorem spells_arrayLines {place : CExpr} {target : String} (spells : Spells place target)
    (element : CType) (dynamic : Bool) (elements : List Expr) :
    Gives (arrayLines types target element dynamic elements)
      (List.Forall₂ Code.Spells (arrayCodes types place element dynamic elements)) := by
  have array : Spells (if dynamic then .arrow place "data" else place)
      (if dynamic then target ++ "->" ++ "data" else target) := by
    cases dynamic
    · exact spells
    · exact spells.arrow
  have create : Spells (.call (.name "ARRAY_CREATE")
      [place, .number (toString (max elements.length 2)), .number (toString elements.length)])
      ("ARRAY_CREATE" ++ "(" ++ ", ".intercalate
        [target, toString (max elements.length 2), toString elements.length] ++ ")") :=
    spells_call _ (.cons spells (.cons rfl (.cons rfl .nil)))
  have each (entry : Expr × Nat) (_ : entry ∈ elements.zipIdx) :
      Gives (do
        let text ← exprText types entry.1
        return (if dynamic then target ++ "->data[" else target ++ "[") ++ toString entry.2 ++
          "] = " ++ (if element.isArray then "(void *)" else "") ++ text ++ ";")
        (Code.store (.index (if dynamic then .arrow place "data" else place)
          (.number (toString entry.2))) (if element.isArray then "(void *)" else "")
          (exprTree types entry.1)).Spells := by
    refine (spells_exprText entry.1).bind fun text value => gives_pure ?_
    have number : Spells (.number (toString entry.2)) (toString entry.2) := rfl
    have store := spells_store (array.index number) (if element.isArray then "(void *)" else "")
      value
    have written : (if dynamic then target ++ "->data[" else target ++ "[") ++ toString entry.2 ++
        "] = " ++ (if element.isArray then "(void *)" else "") ++ text ++ ";" =
          (if dynamic then target ++ "->" ++ "data" else target) ++ "[" ++ toString entry.2 ++
            "]" ++ " = " ++ (if element.isArray then "(void *)" else "") ++ text ++ ";" := by
      apply String.toList_inj.1
      cases dynamic <;> simp
    rwa [written]
  refine (Gives.mapM each).bind fun lines stored => gives_pure ?_
  rw [← List.forall₂_map_left_iff] at stored
  have created : (Code.line (.call (.name "ARRAY_CREATE")
      [place, .number (toString (max elements.length 2)),
        .number (toString elements.length)])).Spells
      ("ARRAY_CREATE(" ++ target ++ ", " ++ toString (max elements.length 2) ++ ", " ++
        toString elements.length ++ ");") := by
    have written : "ARRAY_CREATE(" ++ target ++ ", " ++ toString (max elements.length 2) ++ ", " ++
        toString elements.length ++ ");" = "ARRAY_CREATE" ++ "(" ++ ", ".intercalate
          [target, toString (max elements.length 2), toString elements.length] ++ ")" ++ ";" := by
      apply String.toList_inj.1
      simp
    rw [written]
    exact spells_line create
  cases dynamic with
  | true => exact .cons created stored
  | false => exact stored

theorem spells_dictLines {place : CExpr} {target : String} (spells : Spells place target)
    (properties : List (String × Expr)) :
    Gives (dictLines types target properties)
      (List.Forall₂ Code.Spells (dictCodes types place properties)) := by
  have created : (Code.line (.call (.name "DICT_CREATE")
      [place, .number (toString (max properties.length 4))])).Spells
      ("DICT_CREATE(" ++ target ++ ", " ++ toString (max properties.length 4) ++ ");") := by
    have number : Spells (.number (toString (max properties.length 4)))
      (toString (max properties.length 4)) := rfl
    have call := spells.call_two number (show "DICT_CREATE(" = "DICT_CREATE" ++ "(" by decide)
    have written : "DICT_CREATE(" ++ target ++ ", " ++ toString (max properties.length 4) ++ ");" =
        "DICT_CREATE(" ++ target ++ ", " ++ toString (max properties.length 4) ++ ")" ++ ";" := by
      apply String.toList_inj.1
      simp
    rw [written]
    exact spells_line call
  have each (property : String × Expr) (_ : property ∈ properties) :
      Gives (do
        let text ← exprText types property.2
        return "DICT_SET(" ++ target ++ ", " ++ Text.Quoted.literal property.1 ++ ", " ++ text ++
          ");")
        (Code.line (.call (.name "DICT_SET") [place, .literal (Text.Quoted.literal property.1),
          exprTree types property.2])).Spells := by
    refine (spells_exprText property.2).bind fun text value => gives_pure ?_
    have call := spells_line (spells_call "DICT_SET" (.cons spells (.cons
      (show Spells (.literal (Text.Quoted.literal property.1)) _ from rfl) (.cons value .nil))))
    have written : "DICT_SET(" ++ target ++ ", " ++ Text.Quoted.literal property.1 ++ ", " ++
        text ++ ");" = "DICT_SET" ++ "(" ++ ", ".intercalate
          [target, Text.Quoted.literal property.1, text] ++ ")" ++ ";" := by
      apply String.toList_inj.1
      simp
    rwa [written]
  refine (Gives.mapM each).bind fun lines stored => gives_pure ?_
  rw [← List.forall₂_map_left_iff] at stored
  exact .cons created stored

/-- The lines of an assignment are those of its codes. -/
theorem spells_assignment {place : CExpr} {target : String} (spells : Spells place target)
    (type : Option CType) (value : Expr) :
    Gives (assignment types target type value) fun a =>
      List.Forall₂ Code.Spells (assignmentCodes types place type value) a.lines := by
  have plain : Gives (do return Assignment.expression (target ++ " = " ++ (← exprText types value)))
      fun a => List.Forall₂ Code.Spells [.expression (.assign none place (exprTree types value))]
        a.lines := by
    refine (spells_exprText value).bind fun text spells' => gives_pure (.cons ?_ .nil)
    have assign : Spells (.assign none place (exprTree types value)) _ := spells.assign spells'
    have written : target ++ " " ++ (none : Option BinaryOp).elim "" BinaryOp.spelling ++ "= " ++
        text = target ++ " = " ++ text := by
      apply String.toList_inj.1
      simp
    rwa [written] at assign
  unfold assignment
  split
  · split
    · exact gives_unsupported _ _
    · exact (spells_arrayLines spells ..).bind fun _ lines => gives_pure lines
  · exact (spells_dictLines spells _).bind fun _ lines => gives_pure lines
  · exact gives_unsupported _ _
  · exact gives_unsupported _ _
  · exact gives_unsupported _ _
  · exact gives_unsupported _ _
  next noArray noObject _ _ _ _ =>
    unfold assignmentCodes
    split
    next => exact absurd rfl (noArray _ _ _ _ _ rfl)
    next => exact absurd rfl (noObject _ _ _ rfl)
    next => exact plain

/-! ## Parts of statements -/

section Parts

variable {scope : ScopeId} {w w' : Workspace}

/-- The codes have these texts. -/
abbrev SpellAll (codes : List Code) (texts : List String) : Prop :=
  List.Forall₂ Code.Spells codes texts

theorem spells_expression {e : Expr} {text : String}
    (run : expr (exprText · e) σ w = (.ok text, w')) :
    (Code.expression (exprTree σ.types e)).Spells text :=
  of_expr run (spells_exprText e)

theorem spells_test {e : Expr} {text : String}
    (run : expr (condition · e) σ w = (.ok text, w')) : (conditionCode σ.types e).Spells text :=
  of_expr run (spells_condition e)

theorem spells_declarations : ∀ {declarators : List Declarator} {w w' : Workspace}
    {list : List Assignment}, declarations scope declarators σ w = (.ok list, w') →
      SpellAll (declaredCodes σ.types declarators) (list.flatMap Assignment.lines)
  | [], _, _, _, run => by
      rw [declarations, pure_ok] at run
      obtain ⟨rfl, -⟩ := run
      exact .nil
  | declarator :: rest, _, _, _, run => by
      simp only [declarations, bind_ok, typeOfNode_ok, pure_ok] at run
      obtain ⟨type, _, ⟨known, rfl⟩, _, _, -, first, _, init, _, _, others, rfl, -⟩ := run
      rw [declaredCodes, List.flatMap_cons, List.flatMap_append]
      refine List.rel_append ?_ (spells_declarations others)
      rw [known]
      rcases mapM_option_ok.1 init with ⟨none, rfl, -⟩ | ⟨e, a, some, rfl, run⟩
      · rw [none]
        exact .nil
      · have named : Spells (.name declarator.name) declarator.name := rfl
        rw [some, Option.toList_some, List.flatMap_singleton]
        have spell := of_expr run (spells_assignment named (.some type) e)
        exact spell

theorem spells_expressionStatement {e : Expr} {a : Assignment}
    (run : expressionStatement e σ w = (.ok a, w')) :
    SpellAll (statementCodes σ.types e) a.lines := by
  unfold expressionStatement at run
  split at run
  next node target value =>
    simp only [bind_ok, read_bind] at run
    obtain ⟨place, _, first, run⟩ := run
    have spell := of_expr run (spells_assignment (of_expr first (spells_placeText target)) _ value)
    exact spell
  next plain =>
    simp only [bind_ok, pure_ok] at run
    obtain ⟨text, _, run, rfl, -⟩ := run
    unfold statementCodes
    split
    next => exact absurd rfl (plain _ _ _)
    next => exact .cons (spells_expression run) .nil

theorem spells_binding {left : ForBinding} {target : String}
    (run : binding scope left σ w = (.ok target, w')) :
    (bindingCode σ.types left).Spells target := by
  cases left with
  | declare declarator =>
    simp only [binding, bind_ok, pure_ok] at run
    obtain ⟨_, _, -, _, _, -, rfl, -⟩ := run
    exact rfl
  | target e =>
    rw [binding] at run
    exact of_expr run (spells_placeText e)

theorem spells_loopHead {id : NodeId} {left : ForBinding} {right : Expr}
    {index collection target : String}
    (run : loopHead scope id left right σ w = (.ok (index, collection, target), w')) :
    SpellAll [.expression (exprTree σ.types right), bindingCode σ.types left]
      [collection, target] := by
  simp only [loopHead, bind_ok, pure_ok, Prod.mk.injEq] at run
  obtain ⟨_, _, -, _, _, -, _, _, read, _, _, bound, ⟨-, rfl, rfl⟩, -⟩ := run
  exact .cons (spells_expression read) (.cons (spells_binding bound) .nil)

theorem spells_loopStart {init : Option ForInit} {declared : Option (List Assignment)}
    {first : String} (run : loopStart scope init σ w = (.ok (declared, first), w')) :
    SpellAll (startCodes σ.types init)
      ((declared.getD []).flatMap Assignment.lines ++ [first]) := by
  have absent : SpellAll [.absent] [""] := .cons rfl .nil
  match init with
  | some (.declare declarators) =>
    simp only [loopStart, bind_ok, pure_ok, Prod.mk.injEq] at run
    obtain ⟨list, _, declares, ⟨rfl, rfl⟩, -⟩ := run
    exact List.rel_append (spells_declarations declares) absent
  | some (.evaluate e) =>
    simp only [loopStart, bind_ok, pure_ok, Prod.mk.injEq] at run
    obtain ⟨text, _, read, ⟨rfl, rfl⟩, -⟩ := run
    exact .cons (spells_expression read) .nil
  | none =>
    simp only [loopStart, pure_ok, Prod.mk.injEq] at run
    obtain ⟨⟨rfl, rfl⟩, -⟩ := run
    exact absent

/-- An expression in the head of a loop, which may be left out. -/
theorem spells_part {part : Option Expr} {result : Option String}
    {action : Expr → Types → ExprM String} {code : Expr → Code}
    (each : ∀ {e w w' text}, expr (action e) σ w = (.ok text, w') → (code e).Spells text)
    (run : part.mapM (fun e => expr (action e)) σ w = (.ok result, w')) :
    (part.elim .absent code).Spells (result.getD "") := by
  rcases mapM_option_ok.1 run with ⟨rfl, rfl, -⟩ | ⟨e, _, rfl, rfl, first⟩
  · exact rfl
  · exact each first

end Parts

/-! ## Statements -/

/-- Clauses are found by their index. -/
def Selection.byIndex : Selection → Bool
  | .value _ => false
  | .index .. => true

theorem spells_label {select : Selection} {index : Nat} {test : Option Expr}
    {found : Option (String × List String)} {w w' : Workspace}
    (run : test.mapM (label select index) σ w = (.ok found, w')) :
    SpellAll (test.toList.map (labelCode σ.types select.byIndex index))
      (found.map (·.1)).toList := by
  rcases mapM_option_ok.1 run with ⟨rfl, rfl, -⟩ | ⟨e, _, rfl, rfl, first⟩
  · exact .nil
  · refine .cons ?_ .nil
    cases select with
    | value =>
      simp only [label, bind_ok, pure_ok] at first
      obtain ⟨value, _, read, rfl, -⟩ := first
      exact spells_expression read
    | index =>
      simp only [label, bind_ok, pure_ok] at first
      obtain ⟨_, _, -, rfl, -⟩ := first
      exact rfl

/-- The comparisons of a `switch` are those of its tests with the discriminant. -/
theorem EmitsClauses.spells_comparisons {subject text : String} {discriminant : Expr}
    (spells : Spells (exprTree σ.types discriminant) text) : ∀ {scope : ScopeId} {index : Nat}
    {list : List (Clause Stmt)} {w w' : Workspace} {comparisons : List String}
    {cases : List CStmt} {xs : List Variable},
    EmitsClauses σ scope (.index subject text) index list w comparisons cases xs w' →
      SpellAll (comparisonCodes σ.types discriminant index list) comparisons
  | _, _, _, _, _, _, _, _, .nil .. => .nil
  | _, index, _, _, _, _, _, _, .cons head _ others => by
      refine List.rel_append ?_ (others.spells_comparisons spells)
      rcases mapM_option_ok.1 head with ⟨rfl, rfl, -⟩ | ⟨test, _, rfl, rfl, run⟩
      · exact .nil
      · simp only [label, bind_ok, pure_ok] at run
        obtain ⟨value, _, read, rfl, -⟩ := run
        refine .cons ?_ .nil
        have compared := (spells.call_two (of_expr read (spells_exprText test))
          (show "strcmp(" = "strcmp" ++ "(" by decide)).before (.unary .not)
        have written : "!strcmp(" ++ text ++ ", " ++ value ++ ") ? " ++ toString index =
            Mark.not.spelling ++ ("strcmp(" ++ text ++ ", " ++ value ++ ")") ++
              (" ? " ++ toString index) := by
          apply String.toList_inj.1
          simp [Mark.spelling]
        rw [Code.Spells, written, String.toList_append]
        exact congrArg (· ++ (" ? " ++ toString index).toList) compared

theorem blockTexts_force (b : Block CStmt) (forceBraces : Bool) :
    blockTexts { b with forceBraces } = blockTexts b := by
  cases b
  rfl

mutual

/-- The texts in the C form of a statement are those of the codes of the statement. -/
theorem Emits.spells : ∀ {scope : ScopeId} {s : Stmt} {w w' : Workspace} {c : CStmt}
    {xs : List Variable}, Emits σ scope s w c xs w' → SpellAll (s.codes σ.types) c.texts
  | _, _, _, _, _, _, .breakStmt .. | _, _, _, _, _, _, .continueStmt ..
  | _, _, _, _, _, _, .emptyStmt .. | _, _, _, _, _, _, .importFrom _ => .nil
  | _, _, _, _, _, _, .returnStmt run => by
      simp only [returned, bind_ok, pure_ok] at run
      obtain ⟨_, _, read, _, _, -, rfl, -⟩ := run
      rcases mapM_option_ok.1 read with ⟨rfl, rfl, -⟩ | ⟨e, _, rfl, rfl, run⟩
      · exact .nil
      · exact .cons (spells_expression run) .nil
  | _, _, _, _, _, _, .ifThen head yes => .cons (spells_test head) yes.spells
  | _, _, _, _, _, _, .ifElse head yes no => by
      rw [CStmt.texts, blockTexts_force]
      exact .cons (spells_test head) (List.rel_append yes.spells no.spells)
  | _, _, _, _, _, _, .switchOn head each => by
      have clauses := each.spells
      obtain ⟨text, _, read, ⟨isNumber, rfl⟩ | ⟨notNumber, _, rfl, -⟩⟩ := selection_ok head
      · rw [Stmt.codes, if_pos isNumber]
        exact .cons (spells_expression read) clauses
      · rw [Stmt.codes, if_neg notNumber]
        exact List.rel_append (each.spells_comparisons (of_expr read (spells_exprText _))) clauses
  | _, _, _, _, _, _, .whileLoop head loop => .cons (spells_test head) loop.spells
  | _, _, _, _, _, _, .doLoop loop last =>
    List.rel_append loop.spells (.cons (spells_test last) .nil)
  | _, _, _, _, _, _, .forLoop start head step loop => by
      rw [Stmt.codes, CStmt.texts, List.append_assoc, List.append_cons, ← List.append_assoc]
      exact List.rel_append (List.rel_append (spells_loopStart start)
        (.cons (spells_part spells_test head) (.cons (spells_part spells_expression step) .nil)))
        loop.spells
  | _, _, _, _, _, _, .forOf _ head loop => by
      have inside := loop.spells
      rw [rowCodes, rowCodes, List.append_nil] at inside
      split <;> exact List.rel_append (spells_loopHead head) inside
  | _, _, _, _, _, _, .forIn _ _ head loop => List.rel_append (spells_loopHead head) loop.spells
  | _, _, _, _, _, _, .expression run => spells_expressionStatement run
  | _, _, _, _, _, _, .block inner => inner.spells
  | _, _, _, _, _, _, .declaration run => spells_declarations run

theorem EmitsAll.spells : ∀ {scope : ScopeId} {body : List Stmt} {w w' : Workspace}
    {cs : List CStmt} {xs : List Variable}, EmitsAll σ scope body w cs xs w' →
      SpellAll (rowCodes σ.types body) (listTexts cs)
  | _, _, _, _, _, _, .nil .. => .nil
  | _, _, _, _, _, _, .cons first others => List.rel_append first.spells others.spells

theorem EmitsBlock.spells : ∀ {scope : ScopeId} {body : List Stmt} {w w' : Workspace}
    {b : Block CStmt}, EmitsBlock σ scope body w b w' →
      SpellAll (rowCodes σ.types body) (blockTexts b)
  | _, _, _, _, _, .intro _ all _ => all.spells

theorem EmitsHoisted.spells : ∀ {scope : ScopeId} {body : List Stmt} {w w' : Workspace}
    {cs : List CStmt} {xs : List Variable}, EmitsHoisted σ scope body w cs xs w' →
      SpellAll (rowCodes σ.types body) (listTexts cs)
  | _, _, _, _, _, _, .intro _ all _ => all.spells

theorem EmitsClauses.spells : ∀ {scope : ScopeId} {select : Selection} {index : Nat}
    {list : List (Clause Stmt)} {w w' : Workspace} {comparisons : List String}
    {cases : List CStmt} {xs : List Variable},
    EmitsClauses σ scope select index list w comparisons cases xs w' →
      SpellAll (clauseCodes σ.types select.byIndex index list) (listTexts cases)
  | _, _, _, _, _, _, _, _, _, .nil .. => .nil
  | _, _, _, _, _, _, _, _, _, .cons head first others =>
    List.rel_append (List.rel_append (spells_label head) first.spells) others.spells

end

/-! ## Files -/

theorem spells_functions : ∀ {list : List Function} {gs : List CFunction} {w w' : Workspace},
    functions list σ w = (.ok gs, w') →
      SpellAll ((list.map (·.body)).flatMap (rowCodes σ.types))
        (gs.flatMap fun g => listTexts g.statements)
  | [], _, _, _, run => by
      rw [functions, pure_ok] at run
      obtain ⟨rfl, -⟩ := run
      exact .nil
  | _ :: rest, _, _, _, run => by
      simp only [functions, bind_ok, pure_ok] at run
      obtain ⟨_, _, first, _, _, others, rfl, -⟩ := run
      obtain ⟨_, _, _, -, all, -⟩ := emits_functionBody first
      exact List.rel_append all.spells (spells_functions others)

/-- **The texts of a file.** The texts in the bodies of the file of a module are those of the codes
of the module. -/
theorem spells_program {module : Module} {file : CProgram} {w w' : Workspace}
    (run : program module σ w = (.ok file, w')) :
    SpellAll (module.codes σ.types) file.texts := by
  simp only [program, bind_ok, get_bind, pure_ok] at run
  obtain ⟨gs, _, each, main, _, last, _, _, -, rfl, -⟩ := run
  obtain ⟨_, _, _, -, all, -⟩ := emits_functionBody last
  rw [Module.codes, Module.bodies, List.flatMap_append, List.flatMap_singleton, CProgram.texts,
    CProgram.bodies, List.flatMap_append, List.flatMap_singleton]
  exact List.rel_append (spells_functions each) all.spells

end Emit

end ScriptToC
