/-!
# Decimal fractions

Numbers as they are written in decimal: an integer divided by a power of ten. The same number has
several such forms, with more or fewer zeros at the end.
-/

set_option autoImplicit false

namespace ScriptToC

/-- A decimal fraction: the mantissa divided by a power of ten. -/
structure Decimal where
  mantissa : Int
  exponent : Nat
  deriving DecidableEq, Repr, Inhabited

namespace Decimal

/-- A one with that many zeros. -/
def powerOfTen : Nat → Int
  | 0 => 1
  | zeros + 1 => powerOfTen zeros * 10

/-- A mantissa with its point moved to the right by `shift` places, from before its last `places`
digits. -/
def shifted (mantissa : Int) (places : Nat) (shift : Int) : Decimal :=
  let exponent := (places : Int) - shift
  if exponent ≤ 0 then ⟨mantissa * powerOfTen (-exponent).toNat, 0⟩
  else ⟨mantissa, exponent.toNat⟩

/-- The integer that a decimal fraction is, if it is one. -/
def integer? (value : Decimal) : Option Int :=
  let scale := powerOfTen value.exponent
  if value.mantissa % scale = 0 then some (value.mantissa / scale) else none

example : integer? (shifted 125 2 1) = none := by decide +kernel
example : integer? (shifted 125 2 3) = some 1250 := by decide +kernel

end Decimal

end ScriptToC
