import ScriptToC.CCode.Variable

/-!
# C statements

The statements of a C program, and the objects that print them. The names of the objects and of
their fields are those that messages show.

A block is printed in braces if it declares locals or holds several statements; a block of one
statement is printed as that statement, one level further in, and an empty block as a statement
that does nothing.
-/

set_option autoImplicit false

namespace ScriptToC

open Template

/-- An assignment: an expression that still needs its semicolon, or whole statements, one on a
line. -/
inductive Assignment
  | expression (text : String)
  | statements (lines : List String)
  deriving DecidableEq, Repr

/-- The text of an assignment, without the semicolon of an expression. -/
def Assignment.text : Assignment → String
  | expression text => text
  | statements lines => "\n".intercalate lines

/-- The assignment consists of whole statements, so that no semicolon may follow it. -/
def Assignment.complete : Assignment → Bool
  | expression _ => false
  | statements _ => true

/-- A block over statements: the locals it declares and whether it needs braces in any case. -/
structure Block (σ : Type) where
  locals : List Variable
  statements : List σ
  forceBraces : Bool

/-- The block is printed in braces. -/
def Block.isBraced {σ : Type} (block : Block σ) : Bool :=
  block.forceBraces || decide (block.statements.length > 1) || !block.locals.isEmpty

/-- A C statement. -/
inductive CStmt
  | breakStmt
  | continueStmt
  | emptyStmt
  /-- A return, after the releases of what the function still owns. -/
  | returnStmt (value : Option String) (releases : List Release)
  | ifThen (condition : String) (body : Block CStmt)
  | ifElse (condition : String) (body otherwise : Block CStmt)
  /-- A `switch` on a number. -/
  | switchOn (subject : String) (cases : List CStmt)
  /-- A `switch` on the index of the first matching clause, found by a chain of comparisons. -/
  | switchByIndex (subject : String) (comparisons : List String) (cases : List CStmt)
  /-- One clause of a `switch`; the default clause has no label. -/
  | clause (label : Option String) (statements : List CStmt)
  | whileLoop (condition : String) (body : Block CStmt)
  | doLoop (body : Block CStmt) (condition : String)
  | forLoop (declared : Option (List Assignment)) (init condition increment : String)
      (body : Block CStmt)
  /-- A loop over the elements of a fixed array of this length. -/
  | forFixed (counter : String) (capacity : Nat) (array cast target : String)
      (statements : List CStmt)
  /-- A loop over the elements of a dynamic array. -/
  | forDynamic (counter array cast target : String) (statements : List CStmt)
  /-- A loop over the keys of a dictionary. -/
  | forKeys (counter dict target : String) (statements : List CStmt)
  | expression (e : Assignment)
  | block (block : Block CStmt)
  | importStmt
  | declaration (assignments : List Assignment)

/-! ## Templates -/

/-- The releases stand before the return itself. -/
def returnTemplate : Template :=
  items "destructors" ++ lit "\n" ++
    ifField "expression" (lit "return " ++ slot "expression" ++ lit ";\n") (lit "return;\n")

/-- The second branch is printed only if there is one. -/
def ifTemplate : Template :=
  lit "if (" ++ slot "condition" ++ lit ")\n" ++ slot "then_block" ++ lit "\n" ++
    ifField "has_else" (lit "else\n" ++ slot "else_block" ++ lit "\n") done

/-- A `switch` that finds its clause by an index computes the index first: the comparisons form a
chain of conditional expressions, which gives -1 if none holds. -/
def switchTemplate : Template :=
  ifField "non_integral"
      (slot "switch" ++ lit " = " ++ forEach "values" "" (slot this ++ lit "\n    : ") ++
        lit "-1;\n") done ++
    lit "switch (" ++ slot "switch" ++ lit ") \x7b\n    " ++ items "cases" ++ lit "\n\x7d\n"

/-- The statements of a clause stand one level further in than its label. -/
def clauseTemplate : Template :=
  ifField "is_default" (lit "default:\n") (lit "case " ++ slot "value" ++ lit ":\n") ++
    lit "    " ++ items "statements" ++ lit "\n"

/-- The condition stands before the body. -/
def whileTemplate : Template :=
  lit "while (" ++ slot "condition" ++ lit ")\n" ++ slot "block" ++ lit "\n"

/-- The condition stands after the body. -/
def doTemplate : Template :=
  lit "do\n" ++ slot "block" ++ lit "\nwhile (" ++ slot "condition" ++ lit ");\n"

/-- The assignments of a declaration stand before the loop. -/
def forTemplate : Template :=
  slot "var_decl" ++ lit "\nfor (" ++ slot "init" ++ lit "; " ++ slot "condition" ++ lit "; " ++
    slot "increment" ++ lit ")\n" ++ slot "block" ++ lit "\n"

/-- The counter runs to the size of a dynamic array, or to the length of a fixed one, and the body
begins by assigning the element. -/
def forOfTemplate : Template :=
  ifField "is_dynamic"
      (lit "for (" ++ slot "iterator" ++ lit " = 0; " ++ slot "iterator" ++ lit " < " ++
        slot "array" ++ lit "->size; " ++ slot "iterator" ++ lit "++)\n")
      (lit "for (" ++ slot "iterator" ++ lit " = 0; " ++ slot "iterator" ++ lit " < " ++
        slot "capacity" ++ lit "; " ++ slot "iterator" ++ lit "++)\n") ++
    lit "\x7b\n" ++
    ifField "is_dynamic"
      (lit "    " ++ slot "init" ++ lit " = " ++ slot "cast" ++ slot "array" ++ lit "->data[" ++
        slot "iterator" ++ lit "];\n")
      (lit "    " ++ slot "init" ++ lit " = " ++ slot "cast" ++ slot "array" ++ lit "[" ++
        slot "iterator" ++ lit "];\n") ++
    lit "    " ++ items "statements" ++ lit "\n\x7d\n"

/-- The counter runs over the keys of a dictionary, and the body begins by assigning the key. -/
def forInTemplate : Template :=
  lit "for (" ++ slot "iterator" ++ lit " = 0; " ++ slot "iterator" ++ lit " < " ++ slot "dict" ++
    lit "->index->size; " ++ slot "iterator" ++ lit "++)\n\x7b\n    " ++ slot "init" ++ lit " = " ++
    slot "dict" ++ lit "->index->data[" ++ slot "iterator" ++ lit "];\n    " ++
    items "statements" ++ lit "\n\x7d\n"

/-- What ends the statement is a field, as complete statements have their own end. -/
def expressionTemplate : Template :=
  slot "expression" ++ slot "terminator" ++ lit "\n"

/-- At most one of the three forms of a block is printed: in braces, as a single statement, or as a
statement that does nothing. -/
def blockTemplate : Template :=
  ifField "braced"
      (lit "\x7b\n    " ++ items "variables" ++ lit "\n    " ++ items "statements" ++
        lit "\n\x7d\n") done ++
    ifField "single" (lit "    " ++ slot "statements" ++ lit "\n") done ++
    ifField "empty" (lit "    /* no statements */;\n") done

/-- The assignments of a declaration, one after another. -/
def declarationTemplate : Template :=
  items "assignments" ++ lit "\n"

/-! ## Objects -/

/-- The object that prints an assignment as a statement. -/
def Assignment.toValue (assignment : Assignment) : Value :=
  .object "CExpressionStatement" expressionTemplate
    [("expression", .text assignment.text),
      ("terminator", .text (if assignment.complete then "" else ";"))]

/-- The object that prints the assignments of a declaration. -/
def declarationValue (assignments : List Assignment) : Value :=
  .object "CVariableDeclaration" declarationTemplate
    [("assignments", .list (assignments.map Assignment.toValue))]

namespace CStmt

/-- The name of the object that prints a statement. -/
def objectName : CStmt → String
  | breakStmt => "CBreak"
  | continueStmt => "CContinue"
  | emptyStmt => "CEmpty"
  | returnStmt .. => "CReturn"
  | ifThen .. => "CIf"
  | ifElse .. => "CIf"
  | switchOn .. => "CSwitch"
  | switchByIndex .. => "CSwitch"
  | clause .. => "CSwitchCase"
  | whileLoop .. => "CWhile"
  | doLoop .. => "CDoWhile"
  | forLoop .. => "CFor"
  | forFixed .. => "CForOf"
  | forDynamic .. => "CForOf"
  | forKeys .. => "CForIn"
  | expression .. => "CExpressionStatement"
  | block .. => "CBlock"
  | importStmt => "CImport"
  | declaration .. => "CVariableDeclaration"

/-- The fields of the object that prints a loop over an array. -/
def forOfFields (counter array cast target : String) (capacity : Nat) (dynamic : Bool)
    (statements : List Value) : List (String × Value) :=
  [("iterator", .text counter), ("is_dynamic", .flag dynamic),
    ("capacity", .text (toString capacity)), ("array", .text array), ("cast", .text cast),
    ("init", .text target), ("statements", .list statements)]

mutual

/-- The object that prints a statement. -/
def toValue : CStmt → Value
  | breakStmt => .object "CBreak" (lit "break;\n") []
  | continueStmt => .object "CContinue" (lit "continue;\n") []
  | emptyStmt => .object "CEmpty" (lit ";\n") []
  | returnStmt value releases =>
    .object "CReturn" returnTemplate
      [("destructors", .list (releases.map Release.toValue)),
        ("expression", .text (value.getD ""))]
  | ifThen condition body =>
    .object "CIf" ifTemplate
      [("condition", .text condition), ("then_block", blockValue body), ("has_else", .flag false),
        ("else_block", .text "")]
  | ifElse condition body otherwise =>
    .object "CIf" ifTemplate
      [("condition", .text condition), ("then_block", blockValue body), ("has_else", .flag true),
        ("else_block", blockValue otherwise)]
  | switchOn subject cases =>
    .object "CSwitch" switchTemplate
      [("switch", .text subject), ("non_integral", .flag false), ("values", .list []),
        ("cases", .list (toValues cases))]
  | switchByIndex subject comparisons cases =>
    .object "CSwitch" switchTemplate
      [("switch", .text subject), ("non_integral", .flag true), ("values", .texts comparisons),
        ("cases", .list (toValues cases))]
  | clause label statements =>
    .object "CSwitchCase" clauseTemplate
      [("is_default", .flag label.isNone), ("value", .text (label.getD "")),
        ("statements", .list (toValues statements))]
  | whileLoop condition body =>
    .object "CWhile" whileTemplate [("condition", .text condition), ("block", blockValue body)]
  | doLoop body condition =>
    .object "CDoWhile" doTemplate [("condition", .text condition), ("block", blockValue body)]
  | forLoop declared init condition increment body =>
    .object "CFor" forTemplate
      [("var_decl", declared.elim (.text "") declarationValue), ("init", .text init),
        ("condition", .text condition), ("increment", .text increment), ("block", blockValue body)]
  | forFixed counter capacity array cast target statements =>
    .object "CForOf" forOfTemplate
      (forOfFields counter array cast target capacity false (toValues statements))
  | forDynamic counter array cast target statements =>
    .object "CForOf" forOfTemplate
      (forOfFields counter array cast target 0 true (toValues statements))
  | forKeys counter dict target statements =>
    .object "CForIn" forInTemplate
      [("iterator", .text counter), ("dict", .text dict), ("init", .text target),
        ("statements", .list (toValues statements))]
  | expression e => e.toValue
  | block body => blockValue body
  | importStmt => .object "CImport" .done []
  | declaration assignments => declarationValue assignments

/-- The object that prints a block. -/
def blockValue : Block CStmt → Value
  | ⟨locals, statements, forceBraces⟩ =>
    let braced := Block.isBraced ⟨locals, statements, forceBraces⟩
    .object "CBlock" blockTemplate
      [("braced", .flag braced), ("single", .flag (!braced && statements.length == 1)),
        ("empty", .flag (statements.isEmpty && locals.isEmpty)),
        ("variables", .list (locals.map Variable.toValue)),
        ("statements", .list (toValues statements))]

/-- The objects that print statements. -/
def toValues : List CStmt → List Value
  | [] => []
  | statement :: rest => statement.toValue :: toValues rest

end

/-- The objects are those of the statements one by one. -/
theorem toValues_eq_map (statements : List CStmt) :
    toValues statements = statements.map toValue := by
  induction statements with
  | nil => rfl
  | cons statement rest ih => simp [toValues, ih]

end CStmt

end ScriptToC
