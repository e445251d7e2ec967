import Std.Data.String.ToNat
import Mathlib.Data.List.TakeWhile
import ScriptToC.Ir.Expr
import ScriptToC.Proofs.Grouping.Trees
import ScriptToC.Text.Quoted

/-!
# Strings at run time

The value of an expression that is a string may depend on the state of the program and change it, so
that evaluations go from a state to a string and a state. A string literal stands for the text
between its quotes, with the escapes read back (`literalText_literal`); what other expressions are
evaluated to is left open. To C a string ends at its first NUL, and `strcmp` gives zero for strings
that are the same up to there (`strcmp_eq_zero_iff`).
-/

set_option autoImplicit false

namespace ScriptToC

open Ir Text

/-! ## Texts of literals -/

namespace Text.Quoted

/-- The character that a backslash and a letter stand for. -/
def escaped : Char → Char
  | 'n' => '\n'
  | 'r' => '\r'
  | 't' => '\t'
  | c => c

theorem escaped_of_letter {c l : Char} (written : letter c = some l) : escaped l = c := by
  unfold letter at written
  split at written <;> cases written <;> rfl

/-- What the inside of a string literal stands for. -/
def decode : List Char → List Char
  | '\\' :: l :: rest => escaped l :: decode rest
  | c :: rest => c :: decode rest
  | [] => []

theorem decode_encode (text : List Char) : decode (encode text) = text := by
  induction text with
  | nil => rfl
  | cons c rest ih =>
    rw [encode]
    split
    next l written => rw [decode, ih, escaped_of_letter written]
    next plain =>
      rw [decode, ih]
      exact fun _ _ same => absurd same (plain_of_letter plain).2.1

/-- The text of a string literal. -/
def literalText (literal : String) : String :=
  String.ofList (decode (literal.toList.drop 1).dropLast)

theorem literalText_literal (text : String) : literalText (literal text) = text := by
  simp [literalText, literal, decode_encode]

end Text.Quoted

/-! ## Evaluation -/

/-- How strings are evaluated: from a state to a string and the state after it. -/
abbrev Strings (Source State : Type) := Source → State → String × State

section Evaluation

variable {State : Type}

/-- The evaluation of strings in a script, given that of strings that are no literals. -/
def scriptStrings (others : Strings Expr State) : Strings Expr State
  | .string _ text, s => (text, s)
  | e, s => others e s

/-- The evaluation of strings in C, given that of strings that are no literals. -/
def cStrings (others : Strings CExpr State) : Strings CExpr State
  | .literal text, s => (Quoted.literalText text, s)
  | tree, s => others tree s

/-- What C sees of a string: it ends at its first NUL. -/
def upToNul (text : String) : List Char :=
  text.toList.takeWhile (· ≠ '\x00')

/-- A string without a NUL is seen as a whole. -/
theorem upToNul_of_not_mem {text : String} (noNul : '\x00' ∉ text.toList) :
    upToNul text = text.toList := by
  rw [upToNul, List.takeWhile_eq_self_iff]
  intro c member
  exact decide_eq_true fun nul => noNul (nul ▸ member)

/-- Strings without a NUL are the same to C only if they are. -/
theorem upToNul_eq_iff {first second : String} (noNul : '\x00' ∉ first.toList)
    (noNul' : '\x00' ∉ second.toList) : upToNul first = upToNul second ↔ first = second := by
  rw [upToNul_of_not_mem noNul, upToNul_of_not_mem noNul', String.toList_inj]

/-- The order of two strings to C: of the result only the sign is laid down. -/
def strcmp (first second : String) : Int :=
  if upToNul first = upToNul second then 0
  else if upToNul first < upToNul second then -1 else 1

theorem strcmp_eq_zero_iff {first second : String} :
    strcmp first second = 0 ↔ upToNul first = upToNul second := by
  unfold strcmp
  split
  next same => exact iff_of_true rfl same
  next differ =>
    refine iff_of_false ?_ differ
    split <;> decide

namespace CExpr

/-- The evaluation of an integer, given that of strings. It is known here for numerals, signs,
negations, comparisons of strings and conditional expressions. -/
def integer (strings : Strings CExpr State) : CExpr → State → Option (Int × State)
  | number text, s => text.toNat?.map fun n => (↑n, s)
  | before (.unary .neg) arg, s => (arg.integer strings s).map fun (n, s) => (-n, s)
  | before (.unary .not) arg, s =>
    (arg.integer strings s).map fun (n, s) => (if n = 0 then 1 else 0, s)
  | call (.name callee) [first, second], s =>
    if callee = "strcmp" then
      let (left, s) := strings first s
      let (right, s) := strings second s
      some (strcmp left right, s)
    else
      none
  | conditional test yes no, s =>
    (test.integer strings s).bind fun (n, s) =>
      if n = 0 then no.integer strings s else yes.integer strings s
  | _, _ => none

/-- A number is written in decimal. -/
theorem integer_numeral (strings : Strings CExpr State) (n : Nat) (s : State) :
    (number (toString n)).integer strings s = some (↑n, s) := by
  rw [integer, Nat.toString_eq_repr, Nat.toNat?_repr]
  rfl

/-- A negated comparison of two strings is 1 if they are the same up to a NUL, else 0. -/
theorem integer_not_strcmp (strings : Strings CExpr State) (first second : CExpr) (s : State) :
    (before (.unary .not) (call (.name "strcmp") [first, second])).integer strings s =
      let (left, s) := strings first s
      let (right, s) := strings second s
      some (if upToNul left = upToNul right then 1 else 0, s) := by
  simp only [integer, ↓reduceIte, Option.map_some, strcmp_eq_zero_iff]

end CExpr

end Evaluation

end ScriptToC
