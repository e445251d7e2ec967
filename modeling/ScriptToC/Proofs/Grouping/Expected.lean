import ScriptToC.Emit.Expr
import ScriptToC.Proofs.Grouping.Spacing

/-!
# The trees of expressions

The operator tree that an expression stands for in C (`exprTree`) has the operators of the
expression with the same operands. Lengths, comparisons of texts, dictionaries, growing arrays and
printing become the constructs that C has for them, and a text that is a condition is read at its
first character.

The tree of an expression fits the grammar of C in most places as soon as the expression is one that
the grammar of scripts allows. What is left to ask of it is whether it is clear (`CExpr.Clear`):
exactly then C reads its text as the tree (`reads_iff`).
-/

set_option autoImplicit false

namespace ScriptToC

open Ir

/-! ## Clear trees -/

namespace CExpr

/-- What holds at the root of every tree of an emitted text. -/
def FitsHere : CExpr → Prop
  | name text => isWord text = true
  | number text => isNumber text
  | literal text => isLiteral text = true
  | paren _ | conditional .. => True
  | call callee _ => 14 ≤ callee.level
  | arrow object _ => 14 ≤ object.level
  | index object _ => 14 ≤ object.level
  | after _ target => 14 ≤ target.level ∧ target.last.endsInExponent = false
  | before _ arg => 13 ≤ arg.level
  | between op _ rhs => op.level < rhs.level
  | assign op target _ => 13 ≤ target.level ∧ .assign op ∈ Mark.all

/-- What has to hold besides for a text to keep the grouping. No name is a keyword, a field is a
name, and no exponent takes the sign of an arrow; no operand begins with the sign of the minus or
plus before it; what is to the left of an operator binds as tightly; the test of a conditional
expression is neither one nor an assignment, and what comes last in it is no assignment. -/
def ClearHere : CExpr → Prop
  | name text => text ∉ keywords
  | arrow object field =>
    isWord field = true ∧ field ∉ keywords ∧ object.last.endsInExponent = false
  | before op arg => ∀ sign ∈ op.clash, sign ∉ arg.chars.head?
  | between op lhs _ => op.level ≤ lhs.level
  | conditional test _ no => 3 ≤ test.level ∧ 2 ≤ no.level
  | number _ | literal _ | paren _ | call .. | index .. | after .. | assign .. => True

/-- The text of the tree keeps the grouping. -/
def Clear (tree : CExpr) : Prop :=
  tree.Every ClearHere

/-- A tree that fits is spaced and grouped at its root exactly if it is clear there. -/
theorem spaced_and_grouped_iff {tree : CExpr} (fits : tree.FitsHere) :
    tree.SpacedHere ∧ tree.GroupedHere ↔ tree.ClearHere := by
  cases tree <;> simp only [FitsHere] at fits <;> simp only [SpacedHere, GroupedHere, ClearHere] <;>
    tauto

end CExpr

/-- C reads the text of a tree that fits as the tree exactly if the tree is clear. -/
theorem reads_iff {tree : CExpr} {text : String} (fits : tree.Every CExpr.FitsHere)
    (same : text.toList = tree.chars) : ReadsInto text tree ↔ tree.Clear := by
  rw [ReadsInto, CExpr.Grouped, same, CExpr.lexes_iff, ← CExpr.every_and_iff]
  exact fits.congr fun _ => CExpr.spaced_and_grouped_iff

/-! ## Expressions that fit -/

namespace Ir.Expr

/-- How tightly an expression binds. -/
def level : Expr → Nat
  | number .. | string .. | bool .. | null _ | ident .. | paren .. | array .. | object .. => 15
  | member .. | index .. | call .. => 14
  | update _ _ before _ => if before then 13 else 14
  | unary .. => 13
  | binary _ op _ _ => (InnerOp.strict op).level
  | logical _ op _ _ => (InnerOp.lazy op).level
  | conditional .. => 2
  | assign .. => 1

mutual

/-- The parts of an expression bind as tightly as the grammar of scripts asks, except to the left of
an operator, where a type may end what would bind less tightly without it. Literals of arrays and
objects have no C form as parts of an expression. -/
def Fits : Expr → Prop
  | number _ text => isNumber text
  | ident _ name => isWord name = true
  | string .. | bool .. | null _ | array .. | object .. => True
  | paren _ inner => inner.Fits
  | member _ owner _ => owner.Fits ∧ 14 ≤ owner.level
  | index _ owner key => owner.Fits ∧ 14 ≤ owner.level ∧ key.Fits
  | call _ callee args => callee.Fits ∧ AllFit args
  | unary _ _ arg => arg.Fits ∧ 13 ≤ arg.level
  | update _ _ _ target => target.Fits
  | binary _ op lhs rhs => lhs.Fits ∧ rhs.Fits ∧ (InnerOp.strict op).level < rhs.level
  | logical _ op lhs rhs => lhs.Fits ∧ rhs.Fits ∧ (InnerOp.lazy op).level < rhs.level
  | assign _ op target value => target.Fits ∧ value.Fits ∧ .assign op ∈ Mark.all
  | conditional _ test yes no => test.Fits ∧ yes.Fits ∧ no.Fits

def AllFit : List Expr → Prop
  | [] => True
  | e :: rest => e.Fits ∧ AllFit rest

end

/-- The name of an expression that fits is a word. -/
theorem isWord_of_ident? {name : String} :
    ∀ e : Expr, e.Fits → e.ident? = some name → isWord name = true
  | ident _ _, fits, named => by
      cases named
      rwa [Fits] at fits
  | paren _ inner, fits, named => by
      rw [Fits] at fits
      exact isWord_of_ident? inner fits named

/-- What has a name binds most tightly. -/
theorem level_of_ident? {e : Expr} (named : e.ident?.isSome = true) : e.level = 15 := by
  cases e <;> first | rfl | cases named

end Ir.Expr

/-! ## The trees of expressions -/

namespace Emit

/-- A condition, from the tree of the expression itself. -/
def conditionTree (types : Types) (e : Expr) (tree : CExpr) : CExpr :=
  if (typeOf types e).isString then
    .before .deref (if e.ident?.isSome then tree else .paren tree)
  else
    tree

/-- A member of an object. -/
def memberTree (types : Types) (object : Expr) (property : String) (tree : CExpr) : CExpr :=
  match typeOf types object with
  | .array _ capacity dynamic => if dynamic then .arrow tree "size" else .number (toString capacity)
  | .string => .call (.name "strlen") [tree]
  | .dict _ => .call (.name "DICT_GET") [tree, .literal (Text.Quoted.literal property)]
  | _ => .arrow tree property

/-- An element of an array or dictionary, or a field of a structure. -/
def indexTree (types : Types) (object key : Expr) (tree keyTree : CExpr) : CExpr :=
  match typeOf types object, key with
  | .array _ _ true, _ => .index (.arrow tree "data") keyTree
  | .array _ _ false, _ => .index tree keyTree
  | .struct _, .string _ field => .arrow tree field
  | _, _ => .call (.name "DICT_GET") [tree, keyTree]

/-- How a printed value is formatted. -/
def conversion (types : Types) (arg : Expr) : String :=
  if typeOf types arg = .number then "%d" else "%s"

/-- A printed value. A truth value is printed as a word. -/
def printedTree (types : Types) (arg : Expr) (tree : CExpr) : CExpr :=
  if typeOf types arg = .boolean then
    .conditional tree (.literal "\"true\"") (.literal "\"false\"")
  else
    tree

/-- A call that prints its arguments on a line. -/
def printTree (types : Types) (args : List Expr) (trees : List CExpr) : CExpr :=
  .call (.name "printf")
    (.literal ("\"" ++ " ".intercalate (args.map (conversion types)) ++ "\\n\"") ::
      List.zipWith (printedTree types) args trees)

/-- A call of a method of a dynamic array. -/
def methodTree (name : String) (tree : CExpr) (args : List CExpr) : CExpr :=
  .call (.name (if name = "push" then "ARRAY_PUSH" else "ARRAY_POP")) (tree :: args)

/-- An operator between two values. Texts are compared by a call. -/
def binaryTree (types : Types) (op : BinaryOp) (lhs rhs : Expr) (left right : CExpr) : CExpr :=
  if (typeOf types lhs).isString || (typeOf types rhs).isString then
    .between (.strict op) (.call (.name "strcmp") [left, right]) (.number "0")
  else
    .between (.strict op) left right

mutual

/-- The tree of an expression in C. An expression without a C form has no text, and its tree does
not matter. -/
def exprTree (types : Types) : Expr → CExpr
  | .number _ text => .number text
  | .string _ text => .literal (Text.Quoted.literal text)
  | .bool _ value => .number (if value then "1" else "0")
  | .null _ | .array .. | .object .. => .name "NULL"
  | .ident _ name => .name name
  | .paren _ inner => .paren (exprTree types inner)
  | .member _ object property => memberTree types object property (exprTree types object)
  | .index _ object key => indexTree types object key (exprTree types object) (exprTree types key)
  | .call _ (.member _ object property) args =>
    if object.ident? = some "console" ∧ property = "log" then
      printTree types args (exprTrees types args)
    else
      methodTree property (exprTree types object) (exprTrees types args)
  | .call _ callee args => .call (.name (callee.ident?.getD "")) (exprTrees types args)
  | .unary _ .not arg => .before (.unary .not) (conditionTree types arg (exprTree types arg))
  | .unary _ op arg => .before (.unary op) (exprTree types arg)
  | .update _ op before target =>
    if before then .before (.update op) (placeTree types target)
    else .after op (placeTree types target)
  | .binary _ op lhs rhs => binaryTree types op lhs rhs (exprTree types lhs) (exprTree types rhs)
  | .logical _ op lhs rhs =>
    .between (.lazy op) (conditionTree types lhs (exprTree types lhs))
      (conditionTree types rhs (exprTree types rhs))
  | .assign _ op target value => .assign op (placeTree types target) (exprTree types value)
  | .conditional _ test yes no =>
    .conditional (conditionTree types test (exprTree types test)) (exprTree types yes)
      (exprTree types no)

/-- The tree of a place that can be assigned to. -/
def placeTree (types : Types) : Expr → CExpr
  | .paren _ inner => placeTree types inner
  | .ident _ name => .name name
  | .member _ object property => memberTree types object property (exprTree types object)
  | .index _ object key => indexTree types object key (exprTree types object) (exprTree types key)
  | _ => .name "NULL"

/-- The trees of several expressions. -/
def exprTrees (types : Types) : List Expr → List CExpr
  | [] => []
  | e :: rest => exprTree types e :: exprTrees types rest

end

/-! ## Texts of trees -/

/-- The tree has this text. -/
def Spells (tree : CExpr) (text : String) : Prop :=
  text.toList = tree.chars

section Shapes

variable {tree otherTree : CExpr} {text otherText : String}

theorem Spells.paren (spells : Spells tree text) : Spells (.paren tree) ("(" ++ text ++ ")") := by
  rw [Spells, String.toList_append, String.toList_append, spells, List.append_assoc]
  rfl

theorem spells_call (name : String) {trees : List CExpr} {texts : List String}
    (each : List.Forall₂ Spells trees texts) :
    Spells (.call (.name name) trees) (name ++ "(" ++ ", ".intercalate texts ++ ")") := by
  have charsOf : texts.map String.toList = CExpr.charsOf trees := by
    induction each with
    | nil => rfl
    | cons here _ ih => rw [List.map_cons, ih, here, CExpr.charsOf]
  simp only [Spells, String.toList_append, String.toList_intercalate, charsOf, List.append_assoc]
  rfl

theorem Spells.call_one {name opening : String} (spells : Spells tree text)
    (opens : opening = name ++ "(") :
    Spells (.call (.name name) [tree]) (opening ++ text ++ ")") := by
  have call := spells_call name (.cons spells .nil)
  rwa [← opens] at call

theorem Spells.call_two {name opening : String} (first : Spells tree text)
    (second : Spells otherTree otherText) (opens : opening = name ++ "(") :
    Spells (.call (.name name) [tree, otherTree])
      (opening ++ text ++ ", " ++ otherText ++ ")") := by
  have call := spells_call name (.cons first (.cons second .nil))
  have joined : opening ++ text ++ ", " ++ otherText ++ ")" =
      name ++ "(" ++ ", ".intercalate [text, otherText] ++ ")" := by
    apply String.toList_inj.1
    simp [opens]
  rwa [← joined] at call

theorem Spells.arrow {field : String} (spells : Spells tree text) :
    Spells (.arrow tree field) (text ++ "->" ++ field) := by
  rw [Spells, String.toList_append, String.toList_append, spells, List.append_assoc]
  rfl

theorem Spells.index (spells : Spells tree text) (key : Spells otherTree otherText) :
    Spells (.index tree otherTree) (text ++ "[" ++ otherText ++ "]") := by
  rw [Spells] at spells key ⊢
  simp only [String.toList_append, spells, key, List.append_assoc]
  rfl

theorem Spells.after {op : UpdateOp} (spells : Spells tree text) :
    Spells (.after op tree) (text ++ op.spelling) := by
  rw [Spells, String.toList_append, spells]
  rfl

theorem Spells.before (op : OuterOp) (spells : Spells tree text) :
    Spells (.before op tree) (op.mark.spelling ++ text) := by
  rw [Spells, String.toList_append, spells]
  rfl

theorem Spells.between {op : InnerOp} (left : Spells tree text)
    (right : Spells otherTree otherText) :
    Spells (.between op tree otherTree) (text ++ " " ++ op.spelling ++ " " ++ otherText) := by
  rw [Spells] at left right ⊢
  simp [left, right, CExpr.spaced, Mark.chars, Mark.spelling]

theorem Spells.conditional {thirdTree : CExpr} {thirdText : String} (test : Spells tree text)
    (yes : Spells otherTree otherText) (no : Spells thirdTree thirdText) :
    Spells (.conditional tree otherTree thirdTree)
      (text ++ " ? " ++ otherText ++ " : " ++ thirdText) := by
  rw [Spells] at test yes no ⊢
  simp [test, yes, no, CExpr.spaced, Mark.chars, Mark.spelling]

theorem Spells.assign {op : Option BinaryOp} (target : Spells tree text)
    (value : Spells otherTree otherText) :
    Spells (.assign op tree otherTree)
      (text ++ " " ++ op.elim "" BinaryOp.spelling ++ "= " ++ otherText) := by
  rw [Spells] at target value ⊢
  simp [target, value, CExpr.spaced, Mark.chars, Mark.spelling]

end Shapes

/-- A text is that of a tree that fits and binds that tightly at least. -/
structure Stands (level : Nat) (tree : CExpr) (text : String) : Prop where
  same : text.toList = tree.chars
  fits : tree.Every CExpr.FitsHere
  binds : level ≤ tree.level

section Shapes

variable {types : Types} {level other : Nat} {tree otherTree : CExpr} {text otherText : String}

theorem Stands.weaken (stands : Stands level tree text) (less : other ≤ level) :
    Stands other tree text :=
  ⟨stands.same, stands.fits, less.trans stands.binds⟩

theorem stands_name {name : String} (valid : isWord name = true) : Stands 15 (.name name) name :=
  ⟨rfl, .intro valid nofun, le_rfl⟩

theorem stands_number {text : String} (valid : isNumber text) : Stands 15 (.number text) text :=
  ⟨rfl, .intro valid nofun, le_rfl⟩

theorem stands_literal {text : String} (valid : isLiteral text = true) :
    Stands 15 (.literal text) text :=
  ⟨rfl, .intro valid nofun, le_rfl⟩

theorem stands_paren (stands : Stands level tree text) :
    Stands 15 (.paren tree) ("(" ++ text ++ ")") where
  same := Spells.paren stands.same
  fits := .intro trivial (List.forall_mem_singleton.2 stands.fits)
  binds := le_rfl

theorem stands_call {name : String} {trees : List CExpr} {texts : List String}
    (valid : isWord name = true) (each : List.Forall₂ (Stands 1) trees texts) :
    Stands 14 (.call (.name name) trees) (name ++ "(" ++ ", ".intercalate texts ++ ")") where
  same := spells_call name (each.imp fun _ _ stands => stands.same)
  fits := by
    have inside : ∀ tree ∈ trees, tree.Every CExpr.FitsHere := by
      induction each with
      | nil => nofun
      | cons here _ ih => exact List.forall_mem_cons.2 ⟨here.fits, ih⟩
    exact .intro (Nat.le_succ 14) (List.forall_mem_cons.2 ⟨(stands_name valid).fits, inside⟩)
  binds := le_rfl

theorem stands_call_one {name opening : String} (opens : opening = name ++ "(")
    (valid : isWord name = true) (stands : Stands level tree text) (enough : 1 ≤ level) :
    Stands 14 (.call (.name name) [tree]) (opening ++ text ++ ")") := by
  have call := stands_call valid (.cons (stands.weaken enough) .nil)
  rwa [← opens] at call

theorem stands_call_two {name opening : String} (opens : opening = name ++ "(")
    (valid : isWord name = true) (first : Stands level tree text) (enough : 1 ≤ level)
    (second : Stands other otherTree otherText) (otherEnough : 1 ≤ other) :
    Stands 14 (.call (.name name) [tree, otherTree])
      (opening ++ text ++ ", " ++ otherText ++ ")") := by
  have call := stands_call valid
    (.cons (first.weaken enough) (.cons (second.weaken otherEnough) .nil))
  have joined : opening ++ text ++ ", " ++ otherText ++ ")" =
      name ++ "(" ++ ", ".intercalate [text, otherText] ++ ")" := by
    apply String.toList_inj.1
    simp [opens]
  rwa [← joined] at call

theorem stands_arrow {field : String} (stands : Stands level tree text) (binds : 14 ≤ level) :
    Stands 14 (.arrow tree field) (text ++ "->" ++ field) where
  same := Spells.arrow stands.same
  fits := .intro (binds.trans stands.binds) (List.forall_mem_singleton.2 stands.fits)
  binds := le_rfl

theorem stands_index (stands : Stands level tree text) (binds : 14 ≤ level)
    (key : Stands other otherTree otherText) :
    Stands 14 (.index tree otherTree) (text ++ "[" ++ otherText ++ "]") where
  same := Spells.index stands.same key.same
  fits := .intro (binds.trans stands.binds) (by simp [CExpr.parts, stands.fits, key.fits])
  binds := le_rfl

theorem stands_after {op : UpdateOp} (stands : Stands level tree text) (binds : 14 ≤ level)
    (ends : tree.last.endsInExponent = false) :
    Stands 14 (.after op tree) (text ++ op.spelling) where
  same := Spells.after stands.same
  fits := .intro ⟨binds.trans stands.binds, ends⟩ (List.forall_mem_singleton.2 stands.fits)
  binds := le_rfl

theorem stands_before (op : OuterOp) (stands : Stands level tree text) (binds : 13 ≤ level) :
    Stands 13 (.before op tree) (op.mark.spelling ++ text) where
  same := Spells.before op stands.same
  fits := .intro (binds.trans stands.binds) (List.forall_mem_singleton.2 stands.fits)
  binds := le_rfl

theorem stands_between {op : InnerOp} (left : Stands level tree text)
    (right : Stands other otherTree otherText) (binds : op.level < other) :
    Stands op.level (.between op tree otherTree)
      (text ++ " " ++ op.spelling ++ " " ++ otherText) where
  same := Spells.between left.same right.same
  fits := .intro (binds.trans_le right.binds) (by simp [CExpr.parts, left.fits, right.fits])
  binds := le_rfl

theorem stands_conditional {third : Nat} {thirdTree : CExpr} {thirdText : String}
    (test : Stands level tree text) (yes : Stands other otherTree otherText)
    (no : Stands third thirdTree thirdText) :
    Stands 2 (.conditional tree otherTree thirdTree)
      (text ++ " ? " ++ otherText ++ " : " ++ thirdText) where
  same := Spells.conditional test.same yes.same no.same
  fits := .intro trivial (by simp [CExpr.parts, test.fits, yes.fits, no.fits])
  binds := le_rfl

theorem stands_assign {op : Option BinaryOp} (target : Stands level tree text)
    (value : Stands other otherTree otherText) (binds : 13 ≤ level)
    (carried : .assign op ∈ Mark.all) :
    Stands 1 (.assign op tree otherTree)
      (text ++ " " ++ op.elim "" BinaryOp.spelling ++ "= " ++ otherText) where
  same := Spells.assign target.same value.same
  fits := .intro ⟨binds.trans target.binds, carried⟩
    (by simp [CExpr.parts, target.fits, value.fits])
  binds := le_rfl

end Shapes

/-! ### Numbers and literals -/

theorem toList_toString (n : Nat) : (toString n).toList = Nat.toDigits 10 n := by
  rw [Nat.toString_eq_repr, Nat.repr_eq_ofList_toDigits, String.toList_ofList]

theorem isDigit_of_mem_toString {n : Nat} {c : Char} (member : c ∈ (toString n).toList) :
    c.isDigit = true := by
  rw [toList_toString] at member
  exact Nat.isDigit_of_mem_toDigits (by decide) le_rfl member

theorem isChain_digits {text : List Char} (digits : ∀ c ∈ text, c.isDigit = true) :
    text.IsChain fun before c => continuesNumber before c = true := by
  induction text with
  | nil => exact .nil
  | cons c rest ih =>
    have others : ∀ d ∈ rest, d.isDigit = true := fun d member =>
      digits d (List.mem_cons_of_mem c member)
    refine List.isChain_cons.2 ⟨fun d first => ?_, ih others⟩
    simp [continuesNumber, isWordChar, others d (List.mem_of_mem_head? first)]

/-- A number in decimal is one of C. -/
theorem isNumber_toString (n : Nat) : isNumber (toString n) := by
  have digits : ∀ c ∈ (toString n).toList, c.isDigit = true := fun _ => isDigit_of_mem_toString
  refine ⟨?_, isChain_digits digits⟩
  rcases eq : (toString n).toList with _ | ⟨c, rest⟩
  · rw [toList_toString] at eq
    exact absurd eq Nat.toDigits_ne_nil
  · rw [beginsNumber, digits c (eq ▸ List.mem_cons_self), Bool.true_or]

theorem endsInExponent_toString (n : Nat) :
    (Lexeme.number (toString n)).endsInExponent = false := by
  rw [Lexeme.endsInExponent, Option.any_eq_false]
  intro c last
  have digit := isDigit_of_mem_toString (List.mem_of_getLast? last)
  by_contra exponent
  simp only [announcesExponent, Bool.not_eq_false, Bool.or_eq_true, decide_eq_true_eq] at exponent
  rcases exponent with ((rfl | rfl) | rfl) | rfl <;> exact absurd digit (by decide)

theorem endsLiteral_encode (text : List Char) :
    endsLiteral false (Text.Quoted.encode text ++ ['"']) = true := by
  induction text with
  | nil => rfl
  | cons c rest ih =>
    rw [Text.Quoted.encode]
    split
    next l escaped => exact ih
    next plain =>
      obtain ⟨noQuote, noBackslash, noBreak⟩ := Text.Quoted.plain_of_letter plain
      simpa [endsLiteral, noQuote, noBackslash, (not_or.1 noBreak).1] using ih

theorem isLiteral_quoted (text : String) : isLiteral (Text.Quoted.literal text) = true := by
  rw [isLiteral, Text.Quoted.literal, String.toList_ofList]
  exact endsLiteral_encode text.toList

/-- Conversions and spaces may stand at the start of a literal. -/
theorem endsLiteral_conversions (types : Types) (args : List Expr) (rest : List Char) :
    endsLiteral false ((" ".intercalate (args.map (conversion types))).toList ++ rest) =
      endsLiteral false rest := by
  have one (arg : Expr) (rest : List Char) :
      endsLiteral false ((conversion types arg).toList ++ rest) = endsLiteral false rest := by
    unfold conversion
    split <;> rfl
  rw [String.toList_intercalate, List.map_map]
  induction args with
  | nil => rfl
  | cons arg args ih =>
    cases args with
    | nil =>
      rw [List.map_singleton, List.intercalate_singleton]
      exact one arg rest
    | cons next args =>
      simp only [List.map_cons, List.intercalate_cons_cons, List.append_assoc]
      rw [Function.comp_apply, one]
      exact ih

/-- The format of a line that is printed. -/
theorem isLiteral_format (types : Types) (args : List Expr) :
    isLiteral ("\"" ++ " ".intercalate (args.map (conversion types)) ++ "\\n\"") = true := by
  rw [isLiteral, String.toList_append, String.toList_append, List.append_assoc]
  exact endsLiteral_conversions types args "\\n\"".toList

end Emit

end ScriptToC
