import ScriptToC.CType.Basic

/-!
# How types are written

A type has three written forms: its name in C where a value of it is passed or stored (`cName`),
a C declarator that gives it to a variable (`declare`), and the form in which messages to the
script's author show it (`display`).

A container that is stored in a container is stored as an untyped pointer.
-/

set_option autoImplicit false

namespace ScriptToC.CType

/-- The name of a type where a value of it is passed, returned or stored. -/
def cName : CType → String
  | number => "int16_t"
  | boolean => "uint8_t"
  | string => "const char *"
  | void => "void"
  | array element _ dynamic =>
    let stored := match element with
      | array .. => "void *"
      | other => other.cName
    if dynamic then "ARRAY(" ++ stored ++ ")" else stored ++ " *"
  | dict element =>
    let stored := match element with
      | array .. => "void *"
      | other => other.cName
    "DICT(" ++ stored ++ ")"
  | struct name => "struct " ++ name ++ " *"
  | unknown => "void *"

/-- The name of a type as the element of a container. -/
def elementName : CType → String
  | array .. => "void *"
  | other => other.cName

/-- A declarator: the type's name, a space unless the name ends in a star, and the declared
name. -/
def joinDeclarator (typeName name : String) : String :=
  if typeName.toList.getLast? = some '*' then typeName ++ name else typeName ++ " " ++ name

/-- The C declarator for a variable or parameter. -/
def declare (type : CType) (name : String) : String :=
  match type with
  | array element capacity false =>
    element.elementName ++ " " ++ name ++ "[" ++ toString capacity ++ "]"
  | other => joinDeclarator other.cName name

/-- The form of a type in messages. -/
def display : CType → String
  | number => "number"
  | boolean => "boolean"
  | string => "string"
  | void => "void"
  | array element capacity dynamic =>
    element.display ++ (if dynamic then "[]" else "[" ++ toString capacity ++ "]")
  | dict element => "\x7b [key: string]: " ++ element.display ++ " \x7d"
  | struct name => name
  | unknown => "unknown"

/-- A dynamic array is named after what it stores, whatever its capacity. -/
theorem cName_dynamicArray (element : CType) (capacity : Nat) :
    (array element capacity true).cName = "ARRAY(" ++ element.elementName ++ ")" := by
  cases element <;> rfl

/-- A fixed array is passed as a pointer to its first element. -/
theorem cName_fixedArray (element : CType) (capacity : Nat) :
    (array element capacity false).cName = element.elementName ++ " *" := by
  cases element <;> rfl

example : (dynamicArray (dynamicArray number)).declare "grid" = "ARRAY(void *) grid" := by
  decide +kernel
example : (fixedArray number 5).declare "a" = "int16_t a[5]" := by decide +kernel
example : string.declare "s" = "const char *s" := by decide +kernel

end ScriptToC.CType
