import ScriptToC.CCode.Program
import ScriptToC.Emit.Stmt

/-!
# Whole programs in C

The functions of a module and its main program become one C file. The types of all locals and of
all signatures decide which runtime macros the file defines and which standard headers it includes
besides those that its statements asked for.
-/

set_option autoImplicit false

namespace ScriptToC

open Ir

namespace Emit

/-- The C signature of a function. -/
def signature (name : String) (params : List Param) (returns : CType) : String :=
  let list :=
    if params.isEmpty then "void"
    else ", ".intercalate (params.map fun param => param.type.declare param.name)
  CType.joinDeclarator returns.cName (name ++ "(" ++ list ++ ")")

/-- A function definition in a new function scope. -/
def functionBody (signature : String) (body : List Stmt) (releaseAtEnd isMain : Bool) :
    EmitM CFunction := do
  let scope ← newFunction
  let statements ← stmts scope body
  let locals ← localsOf scope
  let released ← if releaseAtEnd then releases scope none else pure []
  return ⟨signature, locals, statements, released, isMain⟩

/-- A function. One that returns a value releases what it owns at each return. -/
def function (function : Function) : EmitM CFunction :=
  functionBody (signature function.name function.params function.returns) function.body
    (function.returns = .void) false

/-- The main program. -/
def mainFunction (topLevel : List Stmt) : EmitM CFunction :=
  functionBody "int main(void)" topLevel true true

/-- The functions of a module, one after another. -/
def functions : List Function → EmitM (List CFunction)
  | [] => return []
  | first :: rest => do
    let first ← function first
    return first :: (← functions rest)

/-- The types that a function's signature mentions. -/
def signatureTypes (function : Function) : List CType :=
  function.params.map (·.type) ++ [function.returns]

/-- A value of the type is stored in integers of fixed width. -/
def isFixedWidth (type : CType) : Bool :=
  type = .number || type = .boolean || type.isArray

/-- The runtime that a file defines. -/
structure Runtime where
  usesArrays : Bool
  usesDicts : Bool
  deriving DecidableEq, Repr

/-- The runtime that values of some types need. -/
def Runtime.ofTypes (types : List CType) : Runtime where
  usesArrays := types.any CType.usesDicts || types.any CType.usesArrays
  usesDicts := types.any CType.usesDicts

/-- The standard headers that values of some types need. -/
def headersOfTypes (types : List CType) : List String :=
  let runtime := Runtime.ofTypes types
  (if runtime.usesArrays || types.any CType.isHeapOwned then ["stdlib"] else []) ++
    (if runtime.usesDicts then ["string"] else []) ++
    (if runtime.usesArrays || types.any isFixedWidth then ["stdint"] else [])

/-- The C file of a module. -/
def program (module : Module) : EmitM CProgram := do
  let functions ← functions module.functions
  let main ← mainFunction module.topLevel
  let types := (← get).scopes.allLocals.map (·.type) ++
    module.functions.flatMap signatureTypes
  expr fun _ => (headersOfTypes types).forM needs
  let runtime := Runtime.ofTypes types
  return ⟨(← get).headers.includes, runtime.usesArrays, runtime.usesDicts, functions, main⟩

/-- The text of an object. -/
def render (value : Value) : EmitM String := do
  match value.render with
  | .ok text => return text
  | .error cause => throw (.template cause)

/-- The text of the C file of a module. -/
def moduleText (module : Module) : EmitM String := do
  render (← program module).toValue

end Emit

/-- The C file of a module, in which the names in `reserved` are given to nothing new. -/
def Ir.Module.emit (module : Ir.Module) (setting : Setting) (reserved : List String) :
    Except EmitError String :=
  (Emit.moduleText module setting { names := reserved.foldl Names.reserve {} }).1

end ScriptToC
