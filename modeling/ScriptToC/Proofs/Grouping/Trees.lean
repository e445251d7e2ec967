import ScriptToC.Proofs.Grouping.Lexemes

/-!
# Trees of C expressions

The operator trees that C reads into the text of an expression. A tree has a text, in which
operators between operands have spaces around them and the others have none, and it has lexemes. The
grammar of C gives each operator a level and asks how tightly its operands bind: to the left of an
operator between two operands stands what binds at least as tightly as the operator, to the right
what binds more tightly, while assignments and conditional expressions nest to the right
(`Grouped`). A text reads as a tree if it splits into the lexemes of the tree and the tree is
grouped (`ReadsInto`).

A name is the name of a value. A name of a type in parentheses would be a conversion to the type;
what a program declares hides a type of the same name.
-/

set_option autoImplicit false

namespace ScriptToC

open Ir

/-- An operator before its operand. -/
inductive OuterOp
  | unary (op : UnaryOp)
  /-- What a pointer points to. -/
  | deref
  | update (op : UpdateOp)
  deriving DecidableEq, Repr

/-- The mark of an operator before its operand, which may also be that of one between two. -/
def OuterOp.mark : OuterOp → Mark
  | unary .neg => .inner (.strict .sub)
  | unary .plus => .inner (.strict .add)
  | unary .not => .not
  | unary .bitNot => .bitNot
  | deref => .inner (.strict .mul)
  | update op => .update op

/-- How tightly an operator between two operands binds. -/
def InnerOp.level : InnerOp → Nat
  | lazy .or => 3
  | lazy .and => 4
  | strict .bitOr => 5
  | strict .bitXor => 6
  | strict .bitAnd => 7
  | strict .eq | strict .ne => 8
  | strict .lt | strict .le | strict .gt | strict .ge => 9
  | strict .shl | strict .shr => 10
  | strict .add | strict .sub => 11
  | strict .mul | strict .div | strict .rem => 12

/-- The levels of these operators lie between those of the conditional and of the operators with one
operand. -/
theorem InnerOp.level_mem (op : InnerOp) : 3 ≤ op.level ∧ op.level ≤ 12 := by
  rcases op with op | op <;> cases op <;> decide

/-- A tree of a C expression. -/
inductive CExpr
  | name (text : String)
  | number (text : String)
  | literal (text : String)
  | paren (inner : CExpr)
  | call (callee : CExpr) (args : List CExpr)
  /-- A field of the structure that a pointer points to. -/
  | arrow (object : CExpr) (field : String)
  | index (object key : CExpr)
  | after (op : UpdateOp) (target : CExpr)
  | before (op : OuterOp) (arg : CExpr)
  | between (op : InnerOp) (lhs rhs : CExpr)
  | conditional (test yes no : CExpr)
  | assign (op : Option BinaryOp) (target value : CExpr)
  deriving Repr, Inhabited

namespace CExpr

/-! ## Texts and lexemes -/

/-- A mark between spaces. -/
def spaced (m : Mark) : List Char :=
  ' ' :: (m.chars ++ [' '])

mutual

/-- The text of a tree. -/
@[simp]
def chars : CExpr → List Char
  | name text | number text | literal text => text.toList
  | paren inner => Mark.openParen.chars ++ (inner.chars ++ Mark.closeParen.chars)
  | call callee args =>
    callee.chars ++ (Mark.openParen.chars ++
      ((Mark.comma.chars ++ [' ']).intercalate (charsOf args) ++ Mark.closeParen.chars))
  | arrow object field => object.chars ++ (Mark.arrow.chars ++ field.toList)
  | index object key =>
    object.chars ++ (Mark.openBracket.chars ++ (key.chars ++ Mark.closeBracket.chars))
  | after op target => target.chars ++ (Mark.update op).chars
  | before op arg => op.mark.chars ++ arg.chars
  | between op lhs rhs => lhs.chars ++ (spaced (.inner op) ++ rhs.chars)
  | conditional test yes no =>
    test.chars ++ (spaced .question ++ (yes.chars ++ (spaced .colon ++ no.chars)))
  | assign op target value => target.chars ++ (spaced (.assign op) ++ value.chars)

/-- The texts of several trees. -/
@[simp]
def charsOf : List CExpr → List (List Char)
  | [] => []
  | tree :: rest => tree.chars :: charsOf rest

end

mutual

/-- The lexemes of a tree. -/
@[simp]
def lexemes : CExpr → List Lexeme
  | name text => [.word text]
  | number text => [.number text]
  | literal text => [.literal text]
  | paren inner => .mark .openParen :: (inner.lexemes ++ [.mark .closeParen])
  | call callee args =>
    callee.lexemes ++
      .mark .openParen :: ([.mark .comma].intercalate (lexemesOf args) ++ [.mark .closeParen])
  | arrow object field => object.lexemes ++ [.mark .arrow, .word field]
  | index object key =>
    object.lexemes ++ .mark .openBracket :: (key.lexemes ++ [.mark .closeBracket])
  | after op target => target.lexemes ++ [.mark (.update op)]
  | before op arg => .mark op.mark :: arg.lexemes
  | between op lhs rhs => lhs.lexemes ++ .mark (.inner op) :: rhs.lexemes
  | conditional test yes no =>
    test.lexemes ++ .mark .question :: (yes.lexemes ++ .mark .colon :: no.lexemes)
  | assign op target value => target.lexemes ++ .mark (.assign op) :: value.lexemes

/-- The lexemes of several trees, one by one. -/
@[simp]
def lexemesOf : List CExpr → List (List Lexeme)
  | [] => []
  | tree :: rest => tree.lexemes :: lexemesOf rest

end

/-! ## Parts -/

/-- The trees right below a tree. -/
def parts : CExpr → List CExpr
  | name _ | number _ | literal _ => []
  | paren inner => [inner]
  | call callee args => callee :: args
  | arrow object _ => [object]
  | index object key => [object, key]
  | after _ target => [target]
  | before _ arg => [arg]
  | between _ lhs rhs => [lhs, rhs]
  | conditional test yes no => [test, yes, no]
  | assign _ target value => [target, value]

theorem sizeOf_lt_of_mem_parts {tree part : CExpr} (member : part ∈ tree.parts) :
    sizeOf part < sizeOf tree := by
  cases tree with
  | name | number | literal => cases member
  | call callee args =>
    rcases List.mem_cons.1 member with rfl | inside
    · simp +arith
    · have smaller := List.sizeOf_lt_of_mem inside
      simp only [call.sizeOf_spec]
      omega
  | _ =>
    simp only [parts, List.mem_cons, List.not_mem_nil, or_false] at member
    rcases member with rfl | rfl | rfl <;> simp +arith

/-- What holds of a tree whenever it holds of its parts holds of all trees. -/
theorem induct {motive : CExpr → Prop}
    (step : ∀ tree : CExpr, (∀ part ∈ tree.parts, motive part) → motive tree) (tree : CExpr) :
    motive tree :=
  step tree fun part member =>
    have := sizeOf_lt_of_mem_parts member
    induct step part
termination_by sizeOf tree

/-- A tree stands in another one, at whatever depth. -/
inductive Within (inner : CExpr) : CExpr → Prop
  | here : Within inner inner
  | part {part tree : CExpr} (member : part ∈ tree.parts) : Within inner part → Within inner tree

/-- A condition holds at every place of a tree. -/
inductive Every (P : CExpr → Prop) : CExpr → Prop
  | intro {tree : CExpr} (here : P tree) (inside : ∀ part ∈ tree.parts, Every P part) :
    Every P tree

/-- A condition holds everywhere if it holds at the root and everywhere in the parts. -/
theorem every_iff {P : CExpr → Prop} (tree : CExpr) :
    tree.Every P ↔ P tree ∧ ∀ part ∈ tree.parts, part.Every P := by
  constructor
  · rintro ⟨here, inside⟩
    exact ⟨here, inside⟩
  · rintro ⟨here, inside⟩
    exact .intro here inside

/-- Where one condition holds, others can be exchanged that it makes equivalent. -/
theorem Every.congr {P Q R : CExpr → Prop} {tree : CExpr} (given : tree.Every P)
    (same : ∀ tree, P tree → (Q tree ↔ R tree)) : tree.Every Q ↔ tree.Every R := by
  induction given with
  | intro here inside ih =>
    rw [every_iff (P := Q), every_iff (P := R), same _ here]
    exact and_congr_right fun _ => forall₂_congr ih

/-- Two conditions hold everywhere if each of them does. -/
theorem every_and_iff {P Q : CExpr → Prop} (tree : CExpr) :
    tree.Every (fun tree => P tree ∧ Q tree) ↔ tree.Every P ∧ tree.Every Q := by
  induction tree using induct with
  | step tree ih =>
    rw [every_iff tree, every_iff (P := P), every_iff (P := Q), forall₂_congr ih]
    grind

/-! ## Grouping -/

/-- How tightly a tree binds. -/
def level : CExpr → Nat
  | name _ | number _ | literal _ | paren _ => 15
  | call .. | arrow .. | index .. | after .. => 14
  | before .. => 13
  | between op _ _ => op.level
  | conditional .. => 2
  | assign .. => 1

theorem level_pos (tree : CExpr) : 1 ≤ tree.level := by
  cases tree with
  | between op => exact le_trans (by decide) op.level_mem.1
  | _ => simp [level]

/-- The words of C that are no names. -/
def keywords : List String :=
  ["auto", "break", "case", "char", "const", "continue", "default", "do", "double", "else", "enum",
    "extern", "float", "for", "goto", "if", "inline", "int", "long", "register", "restrict",
    "return", "short", "signed", "sizeof", "static", "struct", "switch", "typedef", "union",
    "unsigned", "void", "volatile", "while", "_Alignas", "_Alignof", "_Atomic", "_Bool",
    "_Complex", "_Generic", "_Imaginary", "_Noreturn", "_Static_assert", "_Thread_local"]

/-- The operands of an expression bind as tightly as the grammar asks there, and names are names. -/
def GroupedHere : CExpr → Prop
  | name text => text ∉ keywords
  | number _ | literal _ | paren _ => True
  | call callee _ => 14 ≤ callee.level
  | arrow object field => 14 ≤ object.level ∧ field ∉ keywords
  | index object _ => 14 ≤ object.level
  | after _ target => 14 ≤ target.level
  | before _ arg => 13 ≤ arg.level
  | between op lhs rhs => op.level ≤ lhs.level ∧ op.level < rhs.level
  | conditional test _ no => 3 ≤ test.level ∧ 2 ≤ no.level
  | assign _ target _ => 13 ≤ target.level

/-- The tree is one of C's grammar. -/
def Grouped (tree : CExpr) : Prop :=
  tree.Every GroupedHere

end CExpr

/-- C reads a text as a tree. -/
def ReadsInto (text : String) (tree : CExpr) : Prop :=
  Lexes text.toList tree.lexemes ∧ tree.Grouped

end ScriptToC
