import ScriptToC.Emit.Error
import ScriptToC.CCode.Statement
import ScriptToC.Headers
import ScriptToC.Text.Quoted

/-!
# Expressions in C

The C text of an expression. It depends on the types of the parts, which come from the resolved
types of the program and, where those say nothing, from the shape of the expression.

Emitting an expression may register headers, also when it fails later on, and does nothing else:
it opens no scope and takes no name. A text is truthy in C when its first character is not the null
character, so a condition that is a text reads that character.
-/

set_option autoImplicit false

namespace ScriptToC

open Ir

/-- The resolved types of the nodes of a program. -/
abbrev Types := NodeId → Option CType

/-- A step that may register headers and may fail; the headers registered before a failure
stay registered. -/
abbrev ExprM (α : Type) := ExceptT EmitError (StateM Headers) α

namespace Emit

/-- Registers a header. -/
def needs (header : String) : ExprM Unit :=
  modify fun headers => headers.register header

/-- Gives up on a construct. -/
def unsupported {α : Type} (span : Span) (cause : Unsupported) : ExprM α :=
  throw (.unsupported span cause)

/-! ## Types -/

/-- The resolved type of a node, or another one where none is known. The other one is only found
where it is needed. -/
@[macro_inline] def resolved (types : Types) (node : Node) (otherwise : CType) : CType :=
  match types node.id with
  | none => otherwise
  | some .unknown => otherwise
  | some type => type

/-- The type of an expression: the resolved one, or else what its shape says. -/
def typeOf (types : Types) : Expr → CType
  | .number node _ => resolved types node .number
  | .string node _ => resolved types node .string
  | .bool node _ => resolved types node .boolean
  | .null node => resolved types node .unknown
  | .ident node _ => resolved types node .unknown
  | .paren node inner => resolved types node (typeOf types inner)
  | .array node _ => resolved types node .unknown
  | .object node _ => resolved types node .unknown
  | .member node object property =>
    resolved types node <|
      match typeOf types object with
      | .array .. => if property = "length" then .number else .unknown
      | .string => if property = "length" then .number else .unknown
      | .dict element => element
      | _ => .unknown
  | .index node object _ =>
    resolved types node <|
      match typeOf types object with
      | .array element _ _ => element
      | .dict element => element
      | _ => .unknown
  | .call node _ _ => resolved types node .unknown
  | .unary node .not _ => resolved types node .boolean
  | .unary node _ _ => resolved types node .number
  | .update node _ _ _ => resolved types node .number
  | .binary node op _ _ =>
    resolved types node (if op.isComparison then .boolean else .number)
  | .logical node _ _ _ => resolved types node .boolean
  | .assign node _ _ value => resolved types node (typeOf types value)
  | .conditional node _ yes _ => resolved types node (typeOf types yes)

/-! ## The shapes of C text

Each function puts a construct together from the texts of its parts, which it emits in the order of
the source. -/

/-- A condition, from the text of the expression itself. -/
def conditionText (types : Types) (e : Expr) (text : ExprM String) : ExprM String := do
  let text ← text
  if (typeOf types e).isString then
    return if e.ident?.isSome then "*" ++ text else "*(" ++ text ++ ")"
  else
    return text

/-- A member of an object. -/
def memberText (types : Types) (node : Node) (object : Expr) (property : String)
    (objectText : ExprM String) : ExprM String := do
  let target ← objectText
  let type := typeOf types object
  match type with
  | .array _ capacity dynamic =>
    if property = "length" then
      return if dynamic then target ++ "->size" else toString capacity
    else
      unsupported node.span (.memberOf property type)
  | .string =>
    if property = "length" then
      needs "string"
      return "strlen(" ++ target ++ ")"
    else
      unsupported node.span (.memberOf property type)
  | .struct _ => return target ++ "->" ++ property
  | .dict _ =>
    return "DICT_GET(" ++ target ++ ", " ++ Text.Quoted.literal property ++ ")"
  | _ => unsupported node.span (.memberOf property type)

/-- An element of an array or dictionary, or a field of a structure. -/
def indexText (types : Types) (node : Node) (object key : Expr)
    (objectText keyText : ExprM String) : ExprM String := do
  let target ← objectText
  let keyText ← keyText
  let type := typeOf types object
  match type with
  | .array _ _ true => return target ++ "->data[" ++ keyText ++ "]"
  | .array _ _ false => return target ++ "[" ++ keyText ++ "]"
  | .dict _ => return "DICT_GET(" ++ target ++ ", " ++ keyText ++ ")"
  | .struct _ =>
    match key with
    | .string _ name => return target ++ "->" ++ name
    | _ => unsupported node.span .structKey
  | _ => unsupported node.span (.elementOf type)

/-- A printed value: how it is formatted, and the argument of the call. -/
def printedText (types : Types) (arg : Expr) (text : ExprM String) : ExprM (String × String) := do
  let text ← text
  match typeOf types arg with
  | .number => return ("%d", text)
  | .string => return ("%s", text)
  | .boolean => return ("%s", text ++ " ? \"true\" : \"false\"")
  | other => unsupported arg.span (.printed other)

/-- A call that prints its arguments on a line. -/
def printText (types : Types) (args : List Expr) (texts : List (ExprM String)) :
    ExprM String := do
  needs "stdio"
  let items ← (args.zip texts).mapM fun (arg, text) => printedText types arg text
  let format := "\"" ++ " ".intercalate (items.map (·.1)) ++ "\\n\""
  return "printf(" ++ ", ".intercalate (format :: items.map (·.2)) ++ ")"

/-- A call of a method. Only dynamic arrays have methods: one adds an element, the other takes the
last one. -/
def methodText (types : Types) (node : Node) (object : Expr) (name : String)
    (objectText : ExprM String) (texts : List (ExprM String)) : ExprM String := do
  let type := typeOf types object
  if type.isDynamicArray then
    let target ← objectText
    match name, texts with
    | "push", [value] =>
      let value ← value
      return "ARRAY_PUSH(" ++ target ++ ", " ++ value ++ ")"
    | "pop", [] => return "ARRAY_POP(" ++ target ++ ")"
    | _, _ => unsupported node.span (.method name type)
  else
    unsupported node.span (.method name type)

/-- A call of a named function. -/
def callText (callee : Expr) (texts : List (ExprM String)) : ExprM String := do
  match callee.ident? with
  | none => unsupported callee.span .callee
  | some name =>
    let args ← texts.mapM id
    return name ++ "(" ++ ", ".intercalate args ++ ")"

/-- An operator between two values. Texts can only be compared for equality. -/
def binaryText (types : Types) (node : Node) (op : BinaryOp) (lhs rhs : Expr)
    (lhsText rhsText : ExprM String) : ExprM String := do
  let left ← lhsText
  let right ← rhsText
  if (typeOf types lhs).isString || (typeOf types rhs).isString then
    match op with
    | .eq | .ne =>
      needs "string"
      return "strcmp(" ++ left ++ ", " ++ right ++ ") " ++ op.spelling ++ " 0"
    | _ => unsupported node.span (.stringOperator op)
  else
    return left ++ " " ++ op.spelling ++ " " ++ right

/-! ## Expressions -/

mutual

/-- The C text of an expression. -/
def exprText (types : Types) : Expr → ExprM String
  | .number _ text => return text
  | .string _ text => return Text.Quoted.literal text
  | .bool _ value => return if value then "1" else "0"
  | .null _ => do
    needs "stdlib"
    return "NULL"
  | .ident _ name => return name
  | .paren _ inner => return "(" ++ (← exprText types inner) ++ ")"
  | .array node _ => unsupported node.span .arrayLiteral
  | .object node _ => unsupported node.span .objectLiteral
  | .member node object property => memberText types node object property (exprText types object)
  | .index node object key =>
    indexText types node object key (exprText types object) (exprText types key)
  | .call node (.member _ object property) args =>
    if object.ident? = some "console" ∧ property = "log" then
      printText types args (exprTexts types args)
    else
      methodText types node object property (exprText types object) (exprTexts types args)
  | .call _ callee args => callText callee (exprTexts types args)
  | .unary _ .neg arg => return "-" ++ (← exprText types arg)
  | .unary _ .plus arg => return "+" ++ (← exprText types arg)
  | .unary _ .bitNot arg => return "~" ++ (← exprText types arg)
  | .unary _ .not arg => return "!" ++ (← conditionText types arg (exprText types arg))
  | .update _ op before target => do
    let target ← placeText types target
    return if before then op.spelling ++ target else target ++ op.spelling
  | .binary node op lhs rhs =>
    binaryText types node op lhs rhs (exprText types lhs) (exprText types rhs)
  | .logical _ op lhs rhs => do
    let left ← conditionText types lhs (exprText types lhs)
    let right ← conditionText types rhs (exprText types rhs)
    return left ++ " " ++ op.spelling ++ " " ++ right
  | .assign _ op target value => do
    let target ← placeText types target
    let value ← exprText types value
    return target ++ " " ++ op.elim "" BinaryOp.spelling ++ "= " ++ value
  | .conditional _ test yes no => do
    let test ← conditionText types test (exprText types test)
    let yes ← exprText types yes
    let no ← exprText types no
    return test ++ " ? " ++ yes ++ " : " ++ no

/-- The C text of a place that can be assigned to. -/
def placeText (types : Types) : Expr → ExprM String
  | .ident _ name => return name
  | .paren _ inner => placeText types inner
  | .member node object property => memberText types node object property (exprText types object)
  | .index node object key =>
    indexText types node object key (exprText types object) (exprText types key)
  | other => unsupported other.span .assignmentTarget

/-- The C texts of several expressions. -/
def exprTexts (types : Types) : List Expr → List (ExprM String)
  | [] => []
  | e :: rest => exprText types e :: exprTexts types rest

end

/-- The C text of a condition. -/
def condition (types : Types) (e : Expr) : ExprM String :=
  conditionText types e (exprText types e)

/-- The texts are those of the expressions one by one. -/
theorem exprTexts_eq_map (types : Types) (es : List Expr) :
    exprTexts types es = es.map (exprText types) := by
  induction es with
  | nil => simp [exprTexts]
  | cons e rest ih => simp [exprTexts, ih]

/-! ## Assignments -/

/-- The lines that fill an array from a literal. A dynamic array is created first, with room for at
least two elements. -/
def arrayLines (types : Types) (target : String) (element : CType) (dynamic : Bool)
    (elements : List Expr) : ExprM (List String) := do
  let count := toString elements.length
  let create := "ARRAY_CREATE(" ++ target ++ ", " ++ toString (max elements.length 2) ++ ", " ++
    count ++ ");"
  let cast := if element.isArray then "(void *)" else ""
  let stored := if dynamic then target ++ "->data[" else target ++ "["
  let lines ← elements.zipIdx.mapM fun (e, index) => do
    let text ← exprText types e
    return stored ++ toString index ++ "] = " ++ cast ++ text ++ ";"
  return if dynamic then create :: lines else lines

/-- The lines that fill a dictionary from a literal. It is created first, with room for at least
four entries. -/
def dictLines (types : Types) (target : String) (properties : List (String × Expr)) :
    ExprM (List String) := do
  let create := "DICT_CREATE(" ++ target ++ ", " ++ toString (max properties.length 4) ++ ");"
  let lines ← properties.mapM fun (key, e) => do
    let text ← exprText types e
    return "DICT_SET(" ++ target ++ ", " ++ Text.Quoted.literal key ++ ", " ++ text ++ ");"
  return create :: lines

/-- The assignment of a value to a place whose C text is known. Array and object literals
become several statements, and only targets of a matching type take them. -/
def assignment (types : Types) (target : String) (type : Option CType) (value : Expr) :
    ExprM Assignment := do
  match value, type with
  | .array node elements, some (.array element capacity dynamic) =>
    if !dynamic ∧ elements.length > capacity then
      unsupported node.span (.tooManyElements elements.length capacity)
    else
      return .statements (← arrayLines types target element dynamic elements)
  | .object _ properties, some (.dict _) => return .statements (← dictLines types target properties)
  | .array node _, some other => unsupported node.span (.literalFor other)
  | .object node _, some other => unsupported node.span (.literalFor other)
  | .array node _, none => unsupported node.span .literalForUnknown
  | .object node _, none => unsupported node.span .literalForUnknown
  | _, _ => return .expression (target ++ " = " ++ (← exprText types value))

end Emit

end ScriptToC
