import ScriptToC.Proofs.Grouping.Emitted
import ScriptToC.Proofs.Lowering.Rules

/-!
# What the grammar of scripts lets through

The grammar of scripts gives operators the same order as C's (`precedence_of_binaryOp?`). It differs
in that an assignment may come last in a conditional expression, and in that a type written after an
expression ends it: what comes to the left of an operator may bind less tightly if a type is written
at it. A tree that the grammar allows is `Parsed`.

Lowering such a tree gives an expression that fits (`yields_lowerExpr`).
-/

set_option autoImplicit false

namespace ScriptToC

namespace Source

/-! ## The grammar of scripts -/

/-- How tightly an operator between two operands binds. What is not listed has no counterpart in C
and is rejected whatever its operands are. -/
def precedence : String → Nat
  | "||" | "??" => 3
  | "&&" => 4
  | "|" => 5
  | "^" => 6
  | "&" => 7
  | "==" | "!=" | "===" | "!==" => 8
  | "<" | "<=" | ">" | ">=" | "in" | "instanceof" => 9
  | "<<" | ">>" | ">>>" => 10
  | "+" | "-" => 11
  | _ => 12

namespace Expr

/-- How tightly an expression binds. One with a type may stand where it may stand without it. -/
def level : Expr → Nat
  | number .. | string .. | bool .. | null _ | template .. | ident .. | paren .. | array ..
  | object .. | pattern _ | odd .. => 15
  | member .. | index .. | call .. => 14
  | update _ _ before _ => if before then 13 else 14
  | unary .. => 13
  | binary _ op _ _ => precedence op
  | logical _ op _ _ => precedence op
  | conditional .. => 2
  | assign .. => 1
  | typed _ inner => inner.level

/-- A type is written at the expression. -/
def isTyped : Expr → Bool
  | typed .. => true
  | _ => false

mutual

/-- The parts of an expression are as the grammar of scripts has them. What lowering rejects in any
case is left open, and so are the literals of arrays and objects, which have no C form as parts of
an expression. -/
def Parsed : Expr → Prop
  | number _ value raw => isNumber raw ∧ ∀ decimal ∈ value, 0 ≤ decimal.mantissa
  | ident _ name => isWord name = true
  | string .. | bool .. | null _ | template .. | array .. | object .. | pattern _ | odd .. => True
  | paren _ inner => inner.Parsed
  | typed _ inner => inner.Parsed
  | member _ owner _ => owner.Parsed ∧ 14 ≤ owner.level
  | index _ owner key => owner.Parsed ∧ 14 ≤ owner.level ∧ key.Parsed
  | call _ callee args => callee.Parsed ∧ 14 ≤ callee.level ∧ AllParsed args
  | unary _ _ arg => arg.Parsed ∧ 13 ≤ arg.level
  | update _ _ _ target => target.Parsed ∧ 14 ≤ target.level
  | binary _ op lhs rhs =>
    lhs.Parsed ∧ rhs.Parsed ∧ (lhs.isTyped = true ∨ precedence op ≤ lhs.level) ∧
      precedence op < rhs.level
  | logical _ op lhs rhs =>
    lhs.Parsed ∧ rhs.Parsed ∧ (lhs.isTyped = true ∨ precedence op ≤ lhs.level) ∧
      precedence op < rhs.level
  | assign _ _ target value => target.Parsed ∧ 14 ≤ target.level ∧ value.Parsed
  | conditional _ test yes no => test.Parsed ∧ 3 ≤ test.level ∧ yes.Parsed ∧ no.Parsed

def AllParsed : List (Option Expr) → Prop
  | [] => True
  | none :: rest => AllParsed rest
  | some e :: rest => e.Parsed ∧ AllParsed rest

end

end Expr

end Source

namespace Lowering

open Source

/-! ## Operators and numbers -/

theorem precedence_of_arithmeticOp? {spelling : String} {op : Ir.BinaryOp}
    (found : arithmeticOp? spelling = some op) :
    precedence spelling = (InnerOp.strict op).level := by
  unfold arithmeticOp? at found
  split at found <;> cases found <;> rfl

/-- An operator of a script binds as tightly as its counterpart in C. -/
theorem precedence_of_binaryOp? {spelling : String} {op : Ir.BinaryOp}
    (found : binaryOp? spelling = some op) : precedence spelling = (InnerOp.strict op).level := by
  unfold binaryOp? at found
  split at found
  case h_9 => exact precedence_of_arithmeticOp? found
  all_goals
    cases found
    rfl

theorem precedence_of_logicalOp? {spelling : String} {op : Ir.LogicalOp}
    (found : logicalOp? spelling = some op) : precedence spelling = (InnerOp.lazy op).level := by
  unfold logicalOp? at found
  split at found <;> cases found <;> rfl

theorem isComparison_of_arithmeticOp? {spelling : String} {op : Ir.BinaryOp}
    (found : arithmeticOp? spelling = some op) : op.isComparison = false := by
  unfold arithmeticOp? at found
  split at found <;> cases found <;> rfl

/-- No assignment carries a comparison. -/
theorem assign_mem_of_assignOp? {spelling : String} {op : Option Ir.BinaryOp}
    (found : assignOp? spelling = some op) : .assign op ∈ Mark.all := by
  rw [Mark.assign_mem_all_iff]
  unfold assignOp? at found
  split at found
  · cases found
    nofun
  · split at found
    · obtain ⟨carried, same, rfl⟩ := Option.map_eq_some_iff.1 found
      rintro _ ⟨⟩
      exact isComparison_of_arithmeticOp? same
    · cases found

theorem powerOfTen_pos (zeros : Nat) : 0 < Decimal.powerOfTen zeros := by
  induction zeros with
  | zero => decide
  | succ zeros ih => exact Int.mul_pos ih (by decide)

/-- The text that C reads for a number is one of its numbers. -/
theorem isNumber_numberText {value : Option Decimal} {raw : String} (number : isNumber raw)
    (positive : ∀ decimal ∈ value, 0 ≤ decimal.mantissa) : isNumber (numberText value raw) := by
  unfold numberText
  split
  next n found =>
    split
    · obtain ⟨decimal, isValue, whole⟩ := Option.bind_eq_some_iff.1 found
      have natural : 0 ≤ n := by
        unfold Decimal.integer? at whole
        dsimp only at whole
        split at whole
        · cases whole
          exact Int.ediv_nonneg (positive decimal isValue) (Int.le_of_lt (powerOfTen_pos _))
        · cases whole
      obtain ⟨n, rfl⟩ := Int.eq_ofNat_of_zero_le natural
      exact Emit.isNumber_toString n
    · exact number
  next => exact number

/-! ## Results of lowering -/

/-- An expression is lowered to one that fits and binds as tightly. -/
def FitsFor (e : Expr) (result : Ir.Expr) : Prop :=
  result.Fits ∧ e.level ≤ result.level

variable {declared : Declared}

mutual

/-- A parsed expression is lowered to one that fits. -/
theorem LowersExpr.fits : ∀ {e : Expr} {before after : State} {result : Ir.Expr},
    LowersExpr declared e before result after → e.Parsed → FitsFor e result
  | _, _, _, _, .number .., parsed => by
      rw [Expr.Parsed] at parsed
      refine ⟨?_, le_rfl⟩
      rw [Ir.Expr.Fits]
      exact isNumber_numberText parsed.1 parsed.2
  | _, _, _, _, .string .., _ | _, _, _, _, .bool .., _ | _, _, _, _, .null .., _
  | _, _, _, _, .template .., _ | _, _, _, _, .undefined .., _ | _, _, _, _, .array _, _
  | _, _, _, _, .object _, _ => by
      refine ⟨?_, le_rfl⟩
      rw [Ir.Expr.Fits]
      trivial
  | _, _, _, _, .ident .., parsed => by
      rw [Expr.Parsed] at parsed
      refine ⟨?_, le_rfl⟩
      rwa [Ir.Expr.Fits]
  | _, _, _, _, .paren first, parsed => by
      rw [Expr.Parsed] at parsed
      refine ⟨?_, le_rfl⟩
      rw [Ir.Expr.Fits]
      exact (first.fits parsed).1
  | _, _, _, _, .typed first, parsed => by
      rw [Expr.Parsed] at parsed
      exact first.fits parsed
  | _, _, _, _, .member first, parsed => by
      rw [Expr.Parsed] at parsed
      have object := first.fits parsed.1
      refine ⟨?_, le_rfl⟩
      rw [Ir.Expr.Fits]
      exact ⟨object.1, parsed.2.trans object.2⟩
  | _, _, _, _, .index first second, parsed => by
      rw [Expr.Parsed] at parsed
      have object := first.fits parsed.1
      refine ⟨?_, le_rfl⟩
      rw [Ir.Expr.Fits]
      exact ⟨object.1, parsed.2.1.trans object.2, (second.fits parsed.2.2).1⟩
  | _, _, _, _, .call first each _, parsed => by
      rw [Expr.Parsed] at parsed
      refine ⟨?_, le_rfl⟩
      rw [Ir.Expr.Fits]
      exact ⟨(first.fits parsed.1).1, each.fits parsed.2.2⟩
  | _, _, _, _, .unary _ first, parsed => by
      rw [Expr.Parsed] at parsed
      have arg := first.fits parsed.1
      refine ⟨?_, le_rfl⟩
      rw [Ir.Expr.Fits]
      exact ⟨arg.1, parsed.2.trans arg.2⟩
  | _, _, _, _, .update first, parsed => by
      rw [Expr.Parsed] at parsed
      refine ⟨?_, le_rfl⟩
      rw [Ir.Expr.Fits]
      exact first.fits parsed.1
  | _, _, _, _, .binary known first second, parsed => by
      rw [Expr.Parsed] at parsed
      have rhs := second.fits parsed.2.1
      have same := precedence_of_binaryOp? known
      refine ⟨?_, same.le⟩
      rw [Ir.Expr.Fits, ← same]
      exact ⟨(first.fits parsed.1).1, rhs.1, parsed.2.2.2.trans_le rhs.2⟩
  | _, _, _, _, .logical known first second, parsed => by
      rw [Expr.Parsed] at parsed
      have rhs := second.fits parsed.2.1
      have same := precedence_of_logicalOp? known
      refine ⟨?_, same.le⟩
      rw [Ir.Expr.Fits, ← same]
      exact ⟨(first.fits parsed.1).1, rhs.1, parsed.2.2.2.trans_le rhs.2⟩
  | _, _, _, _, .assign known first second, parsed => by
      rw [Expr.Parsed] at parsed
      refine ⟨?_, le_rfl⟩
      rw [Ir.Expr.Fits]
      exact ⟨first.fits parsed.1, (second.fits parsed.2.2).1, assign_mem_of_assignOp? known⟩
  | _, _, _, _, .conditional first second third, parsed => by
      rw [Expr.Parsed] at parsed
      refine ⟨?_, le_rfl⟩
      rw [Ir.Expr.Fits]
      exact ⟨(first.fits parsed.1).1, (second.fits parsed.2.2.1).1, (third.fits parsed.2.2.2).1⟩

/-- A parsed target is lowered to an expression that fits. -/
theorem LowersTarget.fits : ∀ {e : Expr} {before after : State} {result : Ir.Expr},
    LowersTarget declared e before result after → e.Parsed → result.Fits
  | _, _, _, _, .ident .., parsed => by
      rw [Expr.Parsed] at parsed
      rwa [Ir.Expr.Fits]
  | _, _, _, _, .member first, parsed => by
      rw [Expr.Parsed] at parsed
      have object := first.fits parsed.1
      rw [Ir.Expr.Fits]
      exact ⟨object.1, parsed.2.trans object.2⟩
  | _, _, _, _, .index first second, parsed => by
      rw [Expr.Parsed] at parsed
      have object := first.fits parsed.1
      rw [Ir.Expr.Fits]
      exact ⟨object.1, parsed.2.1.trans object.2, (second.fits parsed.2.2).1⟩

theorem LowersPlain.fits : ∀ {list : List (Option Expr)} {before after : State}
    {result : List Ir.Expr}, LowersPlain declared list before result after →
      Expr.AllParsed list → Ir.Expr.AllFit result
  | _, _, _, _, .nil _, _ => by
      rw [Ir.Expr.AllFit]
      trivial
  | _, _, _, _, .cons first others, parsed => by
      rw [Expr.AllParsed] at parsed
      rw [Ir.Expr.AllFit]
      exact ⟨(first.fits parsed.1).1, others.fits parsed.2⟩

end

/-- Whatever a step of lowering yields is of this kind. -/
def Yields {α : Type} (m : LowerM α) (P : α → Prop) : Prop :=
  ∀ ⦃declared : Declared⦄ ⦃before after : State⦄ ⦃a : α⦄,
    m declared before = .ok (a, after) → P a

/-- Lowering a parsed expression yields one that fits. -/
theorem yields_lowerExpr (e : Expr) (parsed : e.Parsed) : Yields (lowerExpr e) (FitsFor e) :=
  fun _ _ _ _ run => (lowersExpr_of_run e run).fits parsed

end Lowering

end ScriptToC
