import ScriptToC.Ir.Expr
import ScriptToC.CType.Spelling
import ScriptToC.Template.Basic

/-!
# Why a program has no C form

Each cause that emitting C has to give up, and the wording of each. A cause that lies in the
source names the construct and the bytes where it stands.
-/

set_option autoImplicit false

namespace ScriptToC

/-- A source construct that has no C form. -/
inductive Unsupported
  /-- An array literal that initializes nothing. -/
  | arrayLiteral
  /-- An object literal that initializes nothing. -/
  | objectLiteral
  | memberOf (property : String) (type : CType)
  | structKey
  | elementOf (type : CType)
  | method (name : String) (type : CType)
  /-- A call of something that is no named function. -/
  | callee
  | printed (type : CType)
  | stringOperator (op : Ir.BinaryOp)
  | tooManyElements (given capacity : Nat)
  | literalFor (type : CType)
  | literalForUnknown
  | assignmentTarget
  | iterated (type : CType)
  | enumerated (type : CType)
  deriving DecidableEq, Repr

/-- What the type of was asked for and is not known. -/
inductive Subject
  | iterated
  | localVariable (name : String)
  | loopVariable (name : String)
  | described (what : String)
  deriving DecidableEq, Repr

/-- Why no C was emitted. -/
inductive EmitError
  | template (cause : TemplateError)
  | missingType (span : Span) (what : Subject)
  | unknownScope (id : Nat)
  | unsupported (span : Span) (cause : Unsupported)
  deriving DecidableEq, Repr

/-- The name of the construct in messages. -/
def Unsupported.construct : Unsupported → String
  | arrayLiteral => "array literal"
  | objectLiteral => "object literal"
  | memberOf .. => "member access"
  | structKey => "element access"
  | elementOf _ => "element access"
  | method .. => "call"
  | callee => "call"
  | printed _ => "console.log argument"
  | stringOperator _ => "string operator"
  | tooManyElements .. => "initializer"
  | literalFor _ => "initializer"
  | literalForUnknown => "initializer"
  | assignmentTarget => "assignment target"
  | iterated _ => "for-of"
  | enumerated _ => "for-in"

/-- What is wrong with the construct, in messages. -/
def Unsupported.detail : Unsupported → String
  | arrayLiteral => "array literals are only supported as initializers"
  | objectLiteral => "object literals are only supported as initializers"
  | memberOf property type => "`." ++ property ++ "` on a value of type " ++ type.display
  | structKey => "struct fields must be indexed by a string literal"
  | elementOf type => "indexing a value of type " ++ type.display
  | method name type => "method `" ++ name ++ "` on a value of type " ++ type.display
  | callee => "only named functions can be called"
  | printed type => "cannot print a value of type " ++ type.display
  | stringOperator op => "`" ++ op.spelling ++ "` on strings"
  | tooManyElements given capacity =>
    toString given ++ " elements do not fit a fixed array of " ++ toString capacity
  | literalFor type => "literal cannot initialize a value of type " ++ type.display
  | literalForUnknown => "literal assigned to a target of unknown type"
  | assignmentTarget => "expected a variable, field or element"
  | iterated type => "cannot iterate over a value of type " ++ type.display
  | enumerated type => "cannot enumerate keys of a value of type " ++ type.display

/-- The wording of what has no known type. -/
def Subject.wording : Subject → String
  | iterated => "iterated expression"
  | localVariable name => "variable `" ++ name ++ "`"
  | loopVariable name => "loop variable `" ++ name ++ "`"
  | described what => what

namespace EmitError

/-- The wording of an error. -/
def message : EmitError → String
  | template cause => cause.message
  | missingType span what => span.display ++ ": no type is known for " ++ what.wording
  | unknownScope id => "scope ScopeId(" ++ toString id ++ ") does not exist"
  | unsupported span cause =>
    span.display ++ ": unsupported " ++ cause.construct ++ ": " ++ cause.detail

/-- Where in the source the error lies, if it lies there. -/
def span? : EmitError → Option Span
  | missingType span _ => some span
  | unsupported span _ => some span
  | _ => none

end EmitError

end ScriptToC
