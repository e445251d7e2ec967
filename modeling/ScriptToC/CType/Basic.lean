/-!
# Types of C values

The types that a script's values get in C. Numbers are 16-bit integers, texts are pointers to
constant characters, an array is either fixed, with its length in the type, or dynamic, with its
elements on the heap; a dictionary maps texts to values and is always on the heap.

The dynamic parts of a type decide which runtime macros a file needs. Needing the dictionary
runtime implies needing the array runtime (`usesArrays_of_usesDicts`), because a dictionary keeps
its keys and its values in two dynamic arrays.
-/

set_option autoImplicit false

namespace ScriptToC

/-- The type of a value in the C program. -/
inductive CType
  | number
  | boolean
  | string
  | void
  /-- An array; `capacity` is the element count of a fixed one. -/
  | array (element : CType) (capacity : Nat) (dynamic : Bool)
  /-- A dictionary from texts to values of one type. -/
  | dict (element : CType)
  /-- A pointer to a structure of this name. -/
  | struct (name : String)
  | unknown
  deriving DecidableEq, Repr, Inhabited

namespace CType

/-- An array on the stack with `capacity` elements. -/
abbrev fixedArray (element : CType) (capacity : Nat) : CType :=
  .array element capacity false

/-- An array on the heap. -/
abbrev dynamicArray (element : CType) : CType :=
  .array element 0 true

/-- A number. -/
def isNumber : CType → Bool
  | number => true
  | _ => false

/-- A text. -/
def isString : CType → Bool
  | string => true
  | _ => false

/-- An array, fixed or dynamic. -/
def isArray : CType → Bool
  | array .. => true
  | _ => false

/-- A dictionary. -/
def isDict : CType → Bool
  | dict _ => true
  | _ => false

/-- An array whose elements are on the heap. -/
def isDynamicArray : CType → Bool
  | array _ _ dynamic => dynamic
  | _ => false

/-- The same type with its elements, if it is an array, on the heap. -/
def onHeap : CType → CType
  | array element capacity _ => array element capacity true
  | other => other

/-- Values of this type are heap blocks that the declaring scope owns. -/
def isHeapOwned : CType → Bool
  | array _ _ dynamic => dynamic
  | dict _ => true
  | struct _ => true
  | _ => false

/-- This type, or the element type of an array of it, needs the array macros. -/
def usesArrays : CType → Bool
  | array element _ dynamic => dynamic || element.usesArrays
  | dict _ => true
  | _ => false

/-- This type, or the element type of an array of it, needs the dictionary macros. -/
def usesDicts : CType → Bool
  | array element _ _ => element.usesDicts
  | dict _ => true
  | _ => false

/-- The dictionary macros are built from the array macros. -/
theorem usesArrays_of_usesDicts {type : CType} (uses : type.usesDicts = true) :
    type.usesArrays = true := by
  induction type with
  | array element capacity dynamic ih =>
    simp only [usesDicts] at uses
    simp [usesArrays, ih uses]
  | dict element => rfl
  | _ => simp [usesDicts] at uses

/-- An array on the heap stays there. -/
@[simp] theorem onHeap_onHeap (type : CType) : type.onHeap.onHeap = type.onHeap := by
  cases type <;> rfl

/-- Exactly the arrays become dynamic arrays. -/
@[simp] theorem isDynamicArray_onHeap (type : CType) :
    type.onHeap.isDynamicArray = type.isArray := by
  cases type <;> rfl

end CType

end ScriptToC
