import ScriptToC.Ir.Basic
import ScriptToC.Source.Syntax

/-!
# Why a script is rejected

The constructs of a script that have no counterpart in the intermediate form, and how a message
names each of them.
-/

set_option autoImplicit false

namespace ScriptToC.Lowering

open Source

/-- Why a script is rejected. -/
inductive Cause
  | destructuring
  | destructuringAssignment
  | destructuringLoop
  | computedKey
  | operator (spelling : String)
  | interpolation
  | arraySpread
  | objectSpread
  | accessor
  | argumentSpread
  | expression (kind : OddExpr)
  | target
  | labeledBreak
  | labeledContinue
  | asynchronousLoop
  | severalLoopVariables
  | statement (kind : OddStmt)
  | exported
  | anonymousFunction
  | specialFunction
  | restParameters
  deriving DecidableEq, Repr

/-- A rejected construct and its place. -/
structure Rejection where
  span : Span
  cause : Cause
  deriving DecidableEq, Repr

/-- How a message names a statement without a C form. -/
def statementName : OddStmt → String
  | .tryCatch => "`try`"
  | .throw => "`throw`"
  | .labeled => "a labeled statement"
  | .withScope => "`with`"
  | .debugger => "`debugger`"
  | .classDeclaration => "a class declaration"
  | .nestedFunction => "a nested function declaration"
  | .enumDeclaration => "an enum declaration"
  | .export => "this export"
  | .other => "this statement"

/-- The wording of a cause. -/
def Cause.message : Cause → String
  | destructuring => "destructuring patterns are not supported"
  | destructuringAssignment => "destructuring assignment is not supported"
  | destructuringLoop => "destructuring loop targets are not supported"
  | computedKey => "computed property keys are not supported"
  | operator spelling => "operator `" ++ spelling ++ "` is not supported"
  | interpolation => "template literal interpolation is not supported"
  | arraySpread => "spread and holes in array literals are not supported"
  | objectSpread => "spread in object literals is not supported"
  | accessor => "methods and accessors in object literals are not supported"
  | argumentSpread => "spread arguments are not supported"
  | expression .function => "function expressions are not supported"
  | expression .optionalChain => "optional chaining is not supported"
  | expression .construction => "`new` is not supported"
  | expression .other => "unsupported expression"
  | target => "unsupported assignment target"
  | labeledBreak => "labeled `break` is not supported"
  | labeledContinue => "labeled `continue` is not supported"
  | asynchronousLoop => "`for await` is not supported"
  | severalLoopVariables => "expected a single loop variable"
  | statement kind => statementName kind ++ " is not supported"
  | exported => "only exported functions and variables are supported"
  | anonymousFunction => "anonymous functions are not supported"
  | specialFunction => "async and generator functions are not supported"
  | restParameters => "rest parameters are not supported"

end ScriptToC.Lowering
