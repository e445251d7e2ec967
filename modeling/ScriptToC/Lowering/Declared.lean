import ScriptToC.CType.Basic
import ScriptToC.Source.Syntax

/-!
# Declared types

The types that annotations stand for, and what the declarations of a script say about names: the
fields of structures, the meaning of type aliases, and the results of functions. All of it is
gathered before any statement is lowered, so that a use may come before the declaration. Of several
declarations of one name the last one counts.

Every numeric type is a number. An array type is an array on the heap, a type with an index
signature is a dictionary, and any other named type is a structure, unless it is an alias that was
declared before.
-/

set_option autoImplicit false

namespace ScriptToC.Lowering

open Source

/-- What the declarations of a script say. The entry declared last comes first. -/
structure Declared where
  /-- The result types of functions. -/
  returns : List (String × CType) := []
  /-- The field types of structures. -/
  structs : List (String × List (String × CType)) := []
  /-- The types that aliases stand for. -/
  aliases : List (String × CType) := []

/-- The names of types that are numbers. -/
def numericNames : List String :=
  ["i8", "i16", "i32", "i64", "u8", "u16", "u32", "u64", "int"]

/-- The type that a name stands for, with the types it is applied to. -/
def namedType (aliases : List (String × CType)) (name : String) (args : List CType) : CType :=
  if numericNames.contains name then
    .number
  else if name = "Array" then
    .dynamicArray (args.head?.getD .number)
  else if name = "Record" then
    .dict (args[1]?.getD .number)
  else
    (aliases.lookup name).getD (.struct name)

mutual

/-- The type that an annotation stands for. -/
def typeOfExpr (aliases : List (String × CType)) : TypeExpr → CType
  | .number => .number
  | .boolean => .boolean
  | .string => .string
  | .void => .void
  | .array element => .dynamicArray (typeOfExpr aliases element)
  | .paren inner => typeOfExpr aliases inner
  | .literal members => ((indexType aliases members).map .dict).getD .unknown
  | .named name args => namedType aliases name.dotted (typesOfExprs aliases args)
  | .other => .unknown

/-- The value type of the first index signature among some members. -/
def indexType (aliases : List (String × CType)) : List (Member TypeExpr) → Option CType
  | [] => none
  | .index value :: _ => some (typeOfExpr aliases value)
  | _ :: rest => indexType aliases rest

/-- The types that annotations stand for. -/
def typesOfExprs (aliases : List (String × CType)) : List TypeExpr → List CType
  | [] => []
  | type :: rest => typeOfExpr aliases type :: typesOfExprs aliases rest

end

/-- The fields of a structure with the given members; the field declared last comes first. -/
def fieldTypes (aliases : List (String × CType)) (members : List (Member TypeExpr)) :
    List (String × CType) :=
  (members.filterMap fun
    | .property (.name name) type => some (name, (type.map (typeOfExpr aliases)).getD .unknown)
    | _ => none).reverse

namespace Declared

/-- The declarations with those of one more item. -/
def collect (declared : Declared) : Item → Declared
  | .function f =>
    match f.name with
    | some name =>
      let type := (f.returns.map (typeOfExpr declared.aliases)).getD .void
      { declared with returns := (name, type) :: declared.returns }
    | none => declared
  | .interface name members =>
    { declared with structs := (name, fieldTypes declared.aliases members) :: declared.structs }
  | .typeAlias name type =>
    let struct? := match type with
      | .literal members =>
        if (indexType declared.aliases members).isNone then some members else none
      | _ => none
    match struct? with
    | some members =>
      { declared with structs := (name, fieldTypes declared.aliases members) :: declared.structs }
    | none =>
      { declared with aliases := (name, typeOfExpr declared.aliases type) :: declared.aliases }
  | _ => declared

/-- What the declarations of a script say. -/
def ofProgram (program : Program) : Declared :=
  program.foldl collect {}

/-- The type of a structure's field. -/
def fieldType (declared : Declared) (struct field : String) : CType :=
  ((declared.structs.lookup struct).bind (·.lookup field)).getD .unknown

/-- The type of a function's result, as a caller sees it. -/
def returnType? (declared : Declared) (name : String) : Option CType :=
  declared.returns.lookup name

end Declared

end ScriptToC.Lowering
