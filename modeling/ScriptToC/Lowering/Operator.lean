import ScriptToC.Ir.Expr
import ScriptToC.Source.Syntax

/-!
# Operators and numbers

The operators of a script that have a counterpart in C, by their spelling, and the text that C reads
for a number. Strict and loose equality are the same for values of fixed types, and both shifts to
the right are C's.
-/

set_option autoImplicit false

namespace ScriptToC.Lowering

open Ir

/-- The operators before an operand that C has too. -/
def unaryOp? : String → Option UnaryOp
  | "-" => some .neg
  | "+" => some .plus
  | "!" => some .not
  | "~" => some .bitNot
  | _ => none

/-- The operators that an assignment can have too. -/
def arithmeticOp? : String → Option BinaryOp
  | "+" => some .add
  | "-" => some .sub
  | "*" => some .mul
  | "/" => some .div
  | "%" => some .rem
  | "&" => some .bitAnd
  | "|" => some .bitOr
  | "^" => some .bitXor
  | "<<" => some .shl
  | ">>" => some .shr
  | ">>>" => some .shr
  | _ => none

/-- The operators between two values that C has too. -/
def binaryOp? : String → Option BinaryOp
  | "<" => some .lt
  | "<=" => some .le
  | ">" => some .gt
  | ">=" => some .ge
  | "==" => some .eq
  | "===" => some .eq
  | "!=" => some .ne
  | "!==" => some .ne
  | other => arithmeticOp? other

/-- The operators between two conditions that C has too. -/
def logicalOp? : String → Option LogicalOp
  | "&&" => some .and
  | "||" => some .or
  | _ => none

/-- The operator of an assignment: none for the plain one. -/
def assignOp? (spelling : String) : Option (Option BinaryOp) :=
  if spelling = "=" then
    some none
  else if spelling.toList.getLast? = some '=' then
    (arithmeticOp? (String.ofList spelling.toList.dropLast)).map some
  else
    none

/-- The text that C reads for a number. Integers below 10¹⁵ are written in decimal; any other number
keeps its spelling. -/
def numberText (value : Option Decimal) (raw : String) : String :=
  match value.bind Decimal.integer? with
  | some n => if n.natAbs < 1000000000000000 then toString n else raw
  | none => raw

example : numberText (some ⟨16, 0⟩) "0x10" = "16" := by decide +kernel
example : numberText (some ⟨15, 1⟩) "1.5" = "1.5" := by decide +kernel
example : numberText (some ⟨1000000000000000, 0⟩) "1e15" = "1e15" := by decide +kernel

end ScriptToC.Lowering
