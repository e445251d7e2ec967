import ScriptToC.Json.Basic
import ScriptToC.Source.Syntax

/-!
# Reading syntax trees

Syntax trees are exchanged as JSON in the ESTree form: every part is an object with its kind and its
first and last byte. Members that are absent, false or empty are left out of it. The readers below
turn such a tree into a source program. Directives, which stand at the head of a program or function
as statements with a mark, are no part of it.

Each reader takes the depth of nesting that it may still go down.
-/

set_option autoImplicit false

namespace ScriptToC.Source.Tree

open ScriptToC (Json)

/-! ## Parts -/

/-- The kind of a part. -/
def kind (json : Json) : String :=
  (json.textAt "type").getD ""

/-- The bytes of a part. -/
def span (json : Json) : Option Span := do
  return ⟨← json.natAt "start", ← json.natAt "end"⟩

/-- The key of a member. Texts are names also in brackets. -/
def key (json : Json) (computed : Bool) : PropertyKey :=
  match kind json, json.member? "value" with
  | "Identifier", _ =>
    match json.textAt "name" with
    | some name => if computed then .computed else .name name
    | none => .computed
  | "Literal", some (.text name) => .name name
  | _, _ => .computed

/-- The part is a private name. -/
def isPrivate (json : Json) : Bool :=
  kind json = "PrivateIdentifier"

/-- The name in a declaring position; a pattern has none. -/
def boundName (json : Json) : Option String :=
  if kind json = "Identifier" then json.textAt "name" else none

/-! ## Types -/

/-- The name of a type. -/
def typeName : Nat → Json → Option TypeName
  | 0, _ => none
  | fuel + 1, json =>
    match kind json with
    | "Identifier" => (json.textAt "name").map .name
    | "TSQualifiedName" => do
      let left ← typeName fuel (← json.member? "left")
      return .qualified left (← (← json.member? "right").textAt "name")
    | "ThisExpression" => some .this
    | _ => none

mutual

/-- A type annotation. -/
def type : Nat → Json → Option TypeExpr
  | 0, _ => none
  | fuel + 1, json =>
    match kind json with
    | "TSNumberKeyword" => some .number
    | "TSBooleanKeyword" => some .boolean
    | "TSStringKeyword" => some .string
    | "TSVoidKeyword" => some .void
    | "TSUndefinedKeyword" => some .void
    | "TSArrayType" => do return .array (← type fuel (← json.member? "elementType"))
    | "TSParenthesizedType" => do return .paren (← type fuel (← json.member? "typeAnnotation"))
    | "TSTypeLiteral" => do return .literal (← (json.listAt "members").mapM (member fuel))
    | "TSTypeReference" => do
      let name ← typeName fuel (← json.member? "typeName")
      let args := ((json.member? "typeArguments").map (·.listAt "params")).getD []
      return .named name (← args.mapM (type fuel))
    | _ => some .other

/-- A member of an interface or an object type. -/
def member : Nat → Json → Option (Member TypeExpr)
  | 0, _ => none
  | fuel + 1, json =>
    match kind json with
    | "TSIndexSignature" => do
      let annotation ← json.member? "typeAnnotation"
      return .index (← type fuel (← annotation.member? "typeAnnotation"))
    | "TSPropertySignature" => do
      let name := key (← json.member? "key") (json.flagAt "computed")
      match (json.member? "typeAnnotation").bind (·.member? "typeAnnotation") with
      | some annotation => return .property name (some (← type fuel annotation))
      | none => return .property name none
    | _ => some .other

end

/-- The annotation at a part, if it has one. -/
def annotation (fuel : Nat) (json : Json) (name : String) : Option (Option TypeExpr) :=
  match (json.member? name).bind (·.member? "typeAnnotation") with
  | some written => (type fuel written).map some
  | none => some none

/-! ## Expressions -/

/-- A literal. -/
def literal (place : Span) (json : Json) : Expr :=
  if (json.member? "bigint").isSome ∨ (json.member? "regex").isSome then
    .odd place .other
  else
    let raw := (json.textAt "raw").getD ""
    match json.member? "value" with
    | some (.text value) => .string place value
    | some (.bool value) => .bool place value
    | some (.number value) => .number place (some value) raw
    | _ => if raw = "null" then .null place else .number place none raw

/-- A chunk of a template literal. -/
def chunk (json : Json) : Chunk :=
  let text (name : String) : Option String := (json.member? "value").bind (·.textAt name)
  ⟨(text "raw").getD "", text "cooked"⟩

/-- The kind of an expression without a C form. -/
def oddExpr : String → OddExpr
  | "ArrowFunctionExpression" => .function
  | "FunctionExpression" => .function
  | "ChainExpression" => .optionalChain
  | "NewExpression" => .construction
  | _ => .other

mutual

/-- An expression. -/
def expr : Nat → Json → Option Expr
  | 0, _ => none
  | fuel + 1, json => do
    let place ← span json
    let part (name : String) : Option Expr := do expr fuel (← json.member? name)
    let op := (json.textAt "operator").getD ""
    match kind json with
    | "Literal" => return literal place json
    | "TemplateLiteral" =>
      return .template place ((json.listAt "quasis").map chunk)
        !(json.listAt "expressions").isEmpty
    | "Identifier" => return .ident place (← json.textAt "name")
    | "ParenthesizedExpression" => return .paren place (← part "expression")
    | "TSAsExpression" => return .typed place (← part "expression")
    | "TSSatisfiesExpression" => return .typed place (← part "expression")
    | "TSNonNullExpression" => return .typed place (← part "expression")
    | "ArrayExpression" => return .array place (← (json.listAt "elements").mapM (element fuel))
    | "ObjectExpression" => return .object place (← (json.listAt "properties").mapM (property fuel))
    | "MemberExpression" =>
      let name ← json.member? "property"
      if json.flagAt "computed" then
        return .index place (← part "object") (← expr fuel name)
      else if isPrivate name then
        return .odd place .other
      else
        return .member place (← part "object") (← name.textAt "name")
    | "CallExpression" =>
      return .call place (← part "callee") (← (json.listAt "arguments").mapM (element fuel))
    | "UnaryExpression" => return .unary place op (← part "argument")
    | "UpdateExpression" => return .update place op (json.flagAt "prefix") (← part "argument")
    | "BinaryExpression" =>
      if isPrivate (← json.member? "left") then
        return .odd place .other
      else
        return .binary place op (← part "left") (← part "right")
    | "LogicalExpression" => return .logical place op (← part "left") (← part "right")
    | "AssignmentExpression" => return .assign place op (← part "left") (← part "right")
    | "ConditionalExpression" =>
      return .conditional place (← part "test") (← part "consequent") (← part "alternate")
    | "ArrayPattern" => return .pattern place
    | "ObjectPattern" => return .pattern place
    | other => return .odd place (oddExpr other)

/-- An element or argument; one that is spread or left out is `none`. -/
def element : Nat → Json → Option (Option Expr)
  | 0, _ => none
  | fuel + 1, json =>
    match json with
    | .null => some none
    | _ => if kind json = "SpreadElement" then some none else (expr fuel json).map some

/-- A property of an object literal; a spread is `none`. -/
def property : Nat → Json → Option (Option (Property Expr))
  | 0, _ => none
  | fuel + 1, json =>
    if kind json = "SpreadElement" then
      some none
    else do
      let isAccessor := json.flagAt "method" || json.textAt "kind" != some "init"
      let name := key (← json.member? "key") (json.flagAt "computed")
      return some ⟨← span json, isAccessor, name, ← expr fuel (← json.member? "value")⟩

end

/-- An expression that may be absent. -/
def expr? (fuel : Nat) (json : Json) (name : String) : Option (Option Expr) :=
  (json.member? name).mapM (expr fuel)

/-! ## Statements -/

/-- One variable of a declaration. -/
def declarator (fuel : Nat) (json : Json) : Option Declarator := do
  let target ← json.member? "id"
  return ⟨← span json, boundName target, ← annotation fuel target "typeAnnotation",
    ← expr? fuel json "init"⟩

/-- The variables of a declaration. -/
def declarators (fuel : Nat) (json : Json) : Option (List Declarator) :=
  (json.listAt "declarations").mapM (declarator fuel)

/-- What a `for` loop does first. -/
def forInit (fuel : Nat) (json : Json) : Option (Option ForInit) :=
  (json.member? "init").mapM fun init =>
    if kind init = "VariableDeclaration" then (declarators fuel init).map .declare
    else (expr fuel init).map .evaluate

/-- What a loop over a collection assigns to. -/
def forLeft (fuel : Nat) (json : Json) : Option ForLeft := do
  let left ← json.member? "left"
  if kind left = "VariableDeclaration" then
    return .declare (← span left) (← declarators fuel left)
  else
    return .target (← expr fuel left)

/-- The kind of a statement without a C form. -/
def oddStmt : String → OddStmt
  | "TryStatement" => .tryCatch
  | "ThrowStatement" => .throw
  | "LabeledStatement" => .labeled
  | "WithStatement" => .withScope
  | "DebuggerStatement" => .debugger
  | "ClassDeclaration" => .classDeclaration
  | "FunctionDeclaration" => .nestedFunction
  | "TSDeclareFunction" => .nestedFunction
  | "TSEnumDeclaration" => .enumDeclaration
  | "ExportDefaultDeclaration" => .export
  | "ExportAllDeclaration" => .export
  | _ => .other

/-- The parts that are no directives. -/
def withoutDirectives (parts : List Json) : List Json :=
  parts.filter fun part => (part.member? "directive").isNone

/-- The names that an import binds. -/
def importedNames (json : Json) : List String :=
  (json.listAt "specifiers").filterMap fun specifier =>
    (specifier.member? "local").bind (·.textAt "name")

mutual

/-- A statement. -/
def stmt : Nat → Json → Option Stmt
  | 0, _ => none
  | fuel + 1, json => do
    let place ← span json
    let part (name : String) : Option Expr := do expr fuel (← json.member? name)
    let body (name : String) : Option Stmt := do stmt fuel (← json.member? name)
    match kind json with
    | "VariableDeclaration" => return .declaration place (← declarators fuel json)
    | "ExpressionStatement" => return .expression place (← part "expression")
    | "ReturnStatement" => return .returnStmt place (← expr? fuel json "argument")
    | "IfStatement" =>
      let test ← part "test"
      let yes ← body "consequent"
      match json.member? "alternate" with
      | some no => return .ifElse place test yes (← stmt fuel no)
      | none => return .ifThen place test yes
    | "WhileStatement" => return .whileLoop place (← part "test") (← body "body")
    | "DoWhileStatement" => return .doLoop place (← body "body") (← part "test")
    | "ForStatement" =>
      return .forLoop place (← forInit fuel json) (← expr? fuel json "test")
        (← expr? fuel json "update") (← body "body")
    | "ForOfStatement" =>
      return .forOf place (json.flagAt "await") (← forLeft fuel json) (← part "right")
        (← body "body")
    | "ForInStatement" =>
      return .forIn place (← forLeft fuel json) (← part "right") (← body "body")
    | "SwitchStatement" =>
      return .switchOn place (← part "discriminant") (← (json.listAt "cases").mapM (clause fuel))
    | "BreakStatement" => return .breakStmt place (json.member? "label").isSome
    | "ContinueStatement" => return .continueStmt place (json.member? "label").isSome
    | "EmptyStatement" => return .emptyStmt place
    | "BlockStatement" => return .block place (← (json.listAt "body").mapM (stmt fuel))
    | "ImportDeclaration" =>
      return .importFrom place (importedNames json) (← (← json.member? "source").textAt "value")
    | "TSInterfaceDeclaration" => return .typeOnly place
    | "TSTypeAliasDeclaration" => return .typeOnly place
    | other => return .odd place (oddStmt other)

/-- A clause of a `switch`. -/
def clause : Nat → Json → Option (Case Stmt)
  | 0, _ => none
  | fuel + 1, json => do
    return ⟨← expr? fuel json "test", ← (json.listAt "consequent").mapM (stmt fuel)⟩

end

/-! ## Programs -/

/-- A parameter, which may have a default. -/
def param (fuel : Nat) (json : Json) : Option Param := do
  let target ← if kind json = "AssignmentPattern" then json.member? "left" else some json
  return ⟨← span json, boundName target, ← annotation fuel target "typeAnnotation"⟩

/-- The parameter by which a function names its receiver, which is no parameter in C. -/
def isReceiver (json : Json) : Bool :=
  boundName json = some "this"

/-- A function declaration. -/
def function (fuel : Nat) (json : Json) : Option Function := do
  let written := json.listAt "params"
  let isRest (part : Json) : Bool := kind part = "RestElement"
  let plain := written.filter fun part => !isRest part && !isReceiver part
  let body ← (json.member? "body").mapM fun block =>
    (withoutDirectives (block.listAt "body")).mapM (stmt fuel)
  return ⟨← span json, (json.member? "id").bind boundName, ← plain.mapM (param fuel),
    written.any isRest, json.flagAt "async" || json.flagAt "generator",
    ← annotation fuel json "returnType", body⟩

/-- The name that a declaration gives. -/
def declaredName (json : Json) : Option String :=
  (json.member? "id").bind (·.textAt "name")

/-- A declaration that is the same at the top level whether it is exported or not. -/
def declaration (fuel : Nat) (json : Json) : Option (Option Item) := do
  match kind json with
  | "FunctionDeclaration" => return some (.function (← function fuel json))
  | "TSDeclareFunction" => return some (.function (← function fuel json))
  | "TSInterfaceDeclaration" =>
    let members := ((json.member? "body").map (·.listAt "body")).getD []
    return some (.interface (← declaredName json) (← members.mapM (member fuel)))
  | "TSTypeAliasDeclaration" =>
    return some (.typeAlias (← declaredName json)
      (← type fuel (← json.member? "typeAnnotation")))
  | _ => return none

/-- A part at the top level. -/
def item (fuel : Nat) (json : Json) : Option Item := do
  if kind json = "ExportNamedDeclaration" then
    let place ← span json
    match json.member? "declaration" with
    | none => return .exportedOther place
    | some exported =>
      match ← declaration fuel exported with
      | some item => return item
      | none =>
        if kind exported = "VariableDeclaration" then
          return .exportedVariables place (← declarators fuel exported)
        else
          return .exportedOther place
  else
    match ← declaration fuel json with
    | some item => return item
    | none => return .statement (← stmt fuel json)

/-- A program. -/
def program (json : Json) : Option Program :=
  (withoutDirectives (json.listAt "body")).mapM (item json.depth)

/-- What a front end says about a source text. -/
def report (json : Json) : Option Report := do
  let texts (name : String) : Option (List String) := (json.listAt name).mapM Json.text?
  if !json.flagAt "parse_ok" then
    return .syntaxErrors (← texts "errors")
  else
    match json.member? "semantic_errors" with
    | some _ => return .semanticErrors (← texts "semantic_errors")
    | none => return .program (← program (← json.member? "program"))

end ScriptToC.Source.Tree
