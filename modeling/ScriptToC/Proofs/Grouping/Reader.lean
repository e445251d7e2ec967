import ScriptToC.Proofs.Grouping.Trees

/-!
# A text reads as one tree

A reader of lexemes that looks at one lexeme at a time. What is open to the left of the place it has
got to is a row of frames, the innermost first: brackets, and operators that wait for their last
operand. When a mark comes, the operators that bind at least as tightly as the mark get what has
been read; then the mark is attached.

From the lexemes of a grouped tree the reader makes that tree (`readsOn`), so grouped trees with the
same lexemes are the same and a text reads as one tree at most (`ReadsInto.unique`). What the reader
makes of other rows of lexemes does not matter.
-/

set_option autoImplicit false

namespace ScriptToC

open Ir

/-- Something that is open to the left of the place that has been read up to. -/
inductive ReaderFrame
  | paren
  | index (object : CExpr)
  /-- A call, with the arguments before this one. -/
  | call (callee : CExpr) (args : List CExpr)
  /-- A conditional expression between its two marks. -/
  | choice (test : CExpr)
  | before (op : OuterOp)
  | between (op : InnerOp) (lhs : CExpr)
  /-- A conditional expression after its second mark. -/
  | alternative (test yes : CExpr)
  | assign (op : Option BinaryOp) (target : CExpr)

namespace ReaderFrame

/-- How tightly an expression in a frame has to bind. -/
def needs : ReaderFrame → Nat
  | paren | index _ | call .. | choice _ | assign .. => 1
  | alternative .. => 2
  | between op _ => op.level + 1
  | before _ => 13

/-- How tightly a frame binds what is in it. Brackets do not, they wait until they are closed. -/
def binds : ReaderFrame → Nat
  | paren | index _ | call .. | choice _ => 0
  | assign .. => 1
  | alternative .. => 2
  | between op _ => op.level
  | before _ => 13

/-- An operator with its last operand. -/
def fill : ReaderFrame → CExpr → CExpr
  | before op, tree => .before op tree
  | between op lhs, tree => .between op lhs tree
  | alternative test yes, tree => .conditional test yes tree
  | assign op target, tree => .assign op target tree
  | paren, tree | index _, tree | call .., tree | choice _, tree => tree

/-- What has its place in a frame is bound more tightly by its own operator, but for what nests to
the right. -/
theorem binds_le_needs (frame : ReaderFrame) : frame.binds ≤ frame.needs := by
  cases frame <;> simp [binds, needs]

end ReaderFrame

/-- How tightly an expression has to bind in the innermost frame. -/
def needed : List ReaderFrame → Nat
  | [] => 1
  | frame :: _ => frame.needs

/-- The frames and the expression in them after the operators that bind that tightly are filled. -/
def settle (level : Nat) : List ReaderFrame → CExpr → List ReaderFrame × CExpr
  | [], tree => ([], tree)
  | frame :: frames, tree =>
    if level ≤ frame.binds then settle level frames (frame.fill tree) else (frame :: frames, tree)

/-- How tightly the frames to the left bind if they get the expression before a mark. A conditional
expression gets no conditional expression as its test and no assignment after its second mark. -/
def Mark.level : Mark → Nat
  | openParen | openBracket | arrow | update _ => 14
  | inner op => op.level
  | question => 3
  | assign _ => 2
  | closeParen | closeBracket | comma | colon | not | bitNot | foreign _ => 1

/-- How tightly the frames bind if they get the expression before these lexemes. -/
def upcoming : List Lexeme → Nat
  | .mark m :: _ => m.level
  | _ => 1

/-- Where a reader is. -/
inductive Reader
  /-- An expression begins next. -/
  | before (frames : List ReaderFrame)
  /-- The name of a field comes next. -/
  | field (frames : List ReaderFrame) (object : CExpr)
  /-- An expression has been read, which may go on. -/
  | after (frames : List ReaderFrame) (tree : CExpr)

namespace Reader

/-- The operator before an operand that has a mark. -/
def outer? : Mark → Option OuterOp
  | .inner (.strict .sub) => some (.unary .neg)
  | .inner (.strict .add) => some (.unary .plus)
  | .not => some (.unary .not)
  | .bitNot => some (.unary .bitNot)
  | .inner (.strict .mul) => some .deref
  | .update op => some (.update op)
  | _ => none

/-- A mark where an expression begins. -/
def start (frames : List ReaderFrame) : Mark → Option Reader
  | .openParen => some (before (.paren :: frames))
  | .closeParen =>
    match frames with
    | .call callee [] :: frames => some (after frames (.call callee []))
    | _ => none
  | m => (outer? m).map fun op => before (.before op :: frames)

/-- A mark after an expression. -/
def attach (frames : List ReaderFrame) (tree : CExpr) : Mark → Option Reader
  | .inner op => some (before (.between op tree :: frames))
  | .question => some (before (.choice tree :: frames))
  | .colon =>
    match frames with
    | .choice test :: frames => some (before (.alternative test tree :: frames))
    | _ => none
  | .assign op => some (before (.assign op tree :: frames))
  | .openParen => some (before (.call tree [] :: frames))
  | .comma =>
    match frames with
    | .call callee args :: frames => some (before (.call callee (args ++ [tree]) :: frames))
    | _ => none
  | .closeParen =>
    match frames with
    | .paren :: frames => some (after frames (.paren tree))
    | .call callee args :: frames => some (after frames (.call callee (args ++ [tree])))
    | _ => none
  | .openBracket => some (before (.index tree :: frames))
  | .closeBracket =>
    match frames with
    | .index object :: frames => some (after frames (.index object tree))
    | _ => none
  | .arrow => some (field frames tree)
  | .update op => some (after frames (.after op tree))
  | _ => none

/-- The reader after a lexeme. -/
def step : Reader → Lexeme → Option Reader
  | before frames, .word text => some (after frames (.name text))
  | before frames, .number text => some (after frames (.number text))
  | before frames, .literal text => some (after frames (.literal text))
  | before frames, .mark m => start frames m
  | field frames object, .word text => some (after frames (.arrow object text))
  | after frames tree, .mark m =>
    let settled := settle m.level frames tree
    attach settled.1 settled.2 m
  | _, _ => none

/-- The tree that has been read when no lexemes are left. -/
def finish : Reader → Option CExpr
  | after frames tree =>
    match settle 1 frames tree with
    | ([], tree) => some tree
    | _ => none
  | _ => none

/-- The tree that is read from lexemes. -/
def run (reader : Reader) : List Lexeme → Option CExpr
  | [] => reader.finish
  | l :: ls => (reader.step l).bind fun reader => reader.run ls

variable {frames : List ReaderFrame} {tree : CExpr} {rest : List Lexeme}

/-- An operator gets what has been read if nothing that comes binds more tightly. -/
theorem run_fill {frame : ReaderFrame} (bound : upcoming rest ≤ frame.binds) :
    run (after (frame :: frames) tree) rest = run (after frames (frame.fill tree)) rest := by
  rcases rest with _ | ⟨l, ls⟩
  · simp only [run, finish, settle, if_pos (show 1 ≤ frame.binds from bound)]
  · cases l with
    | mark m => simp only [run, step, settle, if_pos (show m.level ≤ frame.binds from bound)]
    | _ => rfl

/-- No operator gets what has been read if what comes binds more tightly than the innermost one. -/
theorem settle_eq {level : Nat} (loose : ∀ frame ∈ frames.head?, frame.binds < level) :
    settle level frames tree = (frames, tree) := by
  cases frames with
  | nil => rfl
  | cons frame frames => exact if_neg (Nat.not_le.2 (loose frame rfl))

theorem run_mark {m : Mark} (loose : ∀ frame ∈ frames.head?, frame.binds < m.level) :
    run (after frames tree) (.mark m :: rest) =
      (attach frames tree m).bind fun reader => reader.run rest := by
  simp only [run, step, settle_eq loose]

/-! ## How tightly the frames bind -/

theorem loose_postfix : ∀ frame ∈ frames.head?, frame.binds < 14 := by
  intro frame _
  cases frame with
  | between op _ => exact Nat.lt_of_le_of_lt op.level_mem.2 (by decide)
  | _ => simp [ReaderFrame.binds]

/-- A conditional expression and an assignment may stand where others of their kind may. -/
theorem loose_right {level : Nat} (enough : needed frames ≤ level) :
    ∀ frame ∈ frames.head?, frame.binds < level + 1 := by
  cases frames with
  | nil => nofun
  | cons frame _ =>
    rintro _ ⟨⟩
    exact Nat.lt_succ_of_le (frame.binds_le_needs.trans enough)

theorem loose_inner {op : InnerOp} (enough : needed frames ≤ op.level) :
    ∀ frame ∈ frames.head?, frame.binds < op.level := by
  have bounds := op.level_mem
  cases frames with
  | nil => nofun
  | cons frame _ =>
    rintro _ ⟨⟩
    cases frame <;> simp only [needed, ReaderFrame.needs, ReaderFrame.binds] at enough ⊢ <;> omega

/-! ## From lexemes to trees -/

/-- The reader makes a tree from its lexemes, whatever comes before and after, if the tree binds
tightly enough for both sides. -/
def ReadsOn (tree : CExpr) : Prop :=
  ∀ (frames : List ReaderFrame) (rest : List Lexeme), needed frames ≤ tree.level →
    upcoming rest ≤ tree.level →
      run (before frames) (tree.lexemes ++ rest) = run (after frames tree) rest

section Constructs

variable {object key arg lhs rhs test yes no target value inner callee : CExpr}

theorem readsOn_paren (read : ReadsOn inner) : ReadsOn (.paren inner) := by
  intro frames rest _ _
  calc
    _ = run (before (.paren :: frames)) (inner.lexemes ++ .mark .closeParen :: rest) := by
      rw [CExpr.lexemes, List.cons_append, List.append_assoc]
      rfl
    _ = run (after (.paren :: frames) inner) (.mark .closeParen :: rest) :=
      read _ _ inner.level_pos inner.level_pos
    _ = run (after frames (.paren inner)) rest := rfl

theorem readsOn_arrow {field : String} (read : ReadsOn object) (binds : 14 ≤ object.level) :
    ReadsOn (.arrow object field) := by
  intro frames rest enough _
  calc
    _ = run (before frames) (object.lexemes ++ .mark .arrow :: .word field :: rest) := by
      rw [CExpr.lexemes, List.append_assoc]
      rfl
    _ = run (after frames object) (.mark .arrow :: .word field :: rest) :=
      read _ _ (enough.trans binds) binds
    _ = run (Reader.field frames object) (.word field :: rest) := run_mark loose_postfix
    _ = run (after frames (.arrow object field)) rest := rfl

theorem readsOn_index (readObject : ReadsOn object) (readKey : ReadsOn key)
    (binds : 14 ≤ object.level) : ReadsOn (.index object key) := by
  intro frames rest enough _
  calc
    _ = run (before frames)
        (object.lexemes ++ .mark .openBracket :: (key.lexemes ++ .mark .closeBracket :: rest)) := by
      simp
    _ = run (after frames object)
        (.mark .openBracket :: (key.lexemes ++ .mark .closeBracket :: rest)) :=
      readObject _ _ (enough.trans binds) binds
    _ = run (before (.index object :: frames)) (key.lexemes ++ .mark .closeBracket :: rest) :=
      run_mark loose_postfix
    _ = run (after (.index object :: frames) key) (.mark .closeBracket :: rest) :=
      readKey _ _ key.level_pos key.level_pos
    _ = run (after frames (.index object key)) rest := rfl

/-- The arguments of a call are read one by one. -/
theorem run_args {args : List CExpr} (each : ∀ part ∈ arg :: args, ReadsOn part)
    (done : List CExpr) :
    run (before (.call callee done :: frames))
        ([.mark .comma].intercalate (CExpr.lexemesOf (arg :: args)) ++ .mark .closeParen :: rest) =
      run (after frames (.call callee (done ++ arg :: args))) rest := by
  have read := each arg List.mem_cons_self
  induction args generalizing arg done with
  | nil =>
    rw [CExpr.lexemesOf, CExpr.lexemesOf, List.intercalate_singleton]
    exact read (.call callee done :: frames) (.mark .closeParen :: rest) arg.level_pos arg.level_pos
  | cons next args ih =>
    calc
      _ = run (before (.call callee done :: frames)) (arg.lexemes ++ .mark .comma ::
          ([.mark .comma].intercalate (CExpr.lexemesOf (next :: args)) ++
            .mark .closeParen :: rest)) := by
        simp
      _ = run (after (.call callee done :: frames) arg) (.mark .comma ::
          ([.mark .comma].intercalate (CExpr.lexemesOf (next :: args)) ++
            .mark .closeParen :: rest)) :=
        read _ _ arg.level_pos arg.level_pos
      _ = run (before (.call callee (done ++ [arg]) :: frames))
          ([.mark .comma].intercalate (CExpr.lexemesOf (next :: args)) ++
            .mark .closeParen :: rest) := rfl
      _ = run (after frames (.call callee (done ++ [arg] ++ next :: args))) rest :=
        ih (fun part member => each part (List.mem_cons_of_mem _ member)) (done ++ [arg])
          (each next (by simp))
      _ = run (after frames (.call callee (done ++ arg :: next :: args))) rest := by simp

theorem readsOn_call {args : List CExpr} (read : ReadsOn callee) (each : ∀ arg ∈ args, ReadsOn arg)
    (binds : 14 ≤ callee.level) : ReadsOn (.call callee args) := by
  intro frames rest enough _
  calc
    _ = run (before frames) (callee.lexemes ++ .mark .openParen ::
        ([.mark .comma].intercalate (CExpr.lexemesOf args) ++ .mark .closeParen :: rest)) := by
      simp
    _ = run (after frames callee) (.mark .openParen ::
        ([.mark .comma].intercalate (CExpr.lexemesOf args) ++ .mark .closeParen :: rest)) :=
      read _ _ (enough.trans binds) binds
    _ = run (before (.call callee [] :: frames))
        ([.mark .comma].intercalate (CExpr.lexemesOf args) ++ .mark .closeParen :: rest) :=
      run_mark loose_postfix
    _ = run (after frames (.call callee args)) rest := by
      cases args with
      | nil => rfl
      | cons arg args => exact run_args each []

theorem readsOn_after {op : UpdateOp} (read : ReadsOn target) (binds : 14 ≤ target.level) :
    ReadsOn (.after op target) := by
  intro frames rest enough _
  calc
    _ = run (before frames) (target.lexemes ++ .mark (.update op) :: rest) := by
      rw [CExpr.lexemes, List.append_assoc]
      rfl
    _ = run (after frames target) (.mark (.update op) :: rest) :=
      read _ _ (enough.trans binds) binds
    _ = run (after frames (.after op target)) rest := run_mark loose_postfix

theorem readsOn_before {op : OuterOp} (read : ReadsOn arg) (binds : 13 ≤ arg.level) :
    ReadsOn (.before op arg) := by
  intro frames rest _ bound
  calc
    _ = run (before (.before op :: frames)) (arg.lexemes ++ rest) := by
      rcases op with op | _ | op
      · cases op <;> rfl
      · rfl
      · rfl
    _ = run (after (.before op :: frames) arg) rest := read _ _ binds (bound.trans binds)
    _ = run (after frames (.before op arg)) rest := run_fill bound

theorem readsOn_between {op : InnerOp} (left : ReadsOn lhs) (right : ReadsOn rhs)
    (leftBinds : op.level ≤ lhs.level) (rightBinds : op.level < rhs.level) :
    ReadsOn (.between op lhs rhs) := by
  intro frames rest enough bound
  calc
    _ = run (before frames) (lhs.lexemes ++ .mark (.inner op) :: (rhs.lexemes ++ rest)) := by
      rw [CExpr.lexemes, List.append_assoc]
      rfl
    _ = run (after frames lhs) (.mark (.inner op) :: (rhs.lexemes ++ rest)) :=
      left _ _ (enough.trans leftBinds) leftBinds
    _ = run (before (.between op lhs :: frames)) (rhs.lexemes ++ rest) :=
      run_mark (loose_inner enough)
    _ = run (after (.between op lhs :: frames) rhs) rest :=
      right _ _ rightBinds (bound.trans rightBinds.le)
    _ = run (after frames (.between op lhs rhs)) rest := run_fill bound

theorem readsOn_conditional (readTest : ReadsOn test) (readYes : ReadsOn yes) (readNo : ReadsOn no)
    (testBinds : 3 ≤ test.level) (noBinds : 2 ≤ no.level) :
    ReadsOn (.conditional test yes no) := by
  intro frames rest enough bound
  calc
    _ = run (before frames) (test.lexemes ++ .mark .question ::
        (yes.lexemes ++ .mark .colon :: (no.lexemes ++ rest))) := by
      simp
    _ = run (after frames test) (.mark .question ::
        (yes.lexemes ++ .mark .colon :: (no.lexemes ++ rest))) :=
      readTest _ _ (enough.trans (Nat.le_of_succ_le testBinds)) testBinds
    _ = run (before (.choice test :: frames))
        (yes.lexemes ++ .mark .colon :: (no.lexemes ++ rest)) :=
      run_mark (loose_right enough)
    _ = run (after (.choice test :: frames) yes) (.mark .colon :: (no.lexemes ++ rest)) :=
      readYes _ _ yes.level_pos yes.level_pos
    _ = run (before (.alternative test yes :: frames)) (no.lexemes ++ rest) := rfl
    _ = run (after (.alternative test yes :: frames) no) rest :=
      readNo _ _ noBinds (bound.trans noBinds)
    _ = run (after frames (.conditional test yes no)) rest := run_fill bound

theorem readsOn_assign {op : Option BinaryOp} (readTarget : ReadsOn target)
    (readValue : ReadsOn value) (binds : 13 ≤ target.level) :
    ReadsOn (.assign op target value) := by
  intro frames rest enough bound
  calc
    _ = run (before frames) (target.lexemes ++ .mark (.assign op) :: (value.lexemes ++ rest)) := by
      simp
    _ = run (after frames target) (.mark (.assign op) :: (value.lexemes ++ rest)) :=
      readTarget _ _ (enough.trans target.level_pos) (Nat.le_trans (by decide : 2 ≤ 13) binds)
    _ = run (before (.assign op target :: frames)) (value.lexemes ++ rest) :=
      run_mark (loose_right enough)
    _ = run (after (.assign op target :: frames) value) rest :=
      readValue _ _ value.level_pos (bound.trans value.level_pos)
    _ = run (after frames (.assign op target value)) rest := run_fill bound

end Constructs

/-- The reader makes a grouped tree from its lexemes. -/
theorem readsOn (grouped : tree.Grouped) : ReadsOn tree := by
  induction grouped with
  | @intro tree here _ ih =>
    cases tree with
    | name text => exact fun _ _ _ _ => rfl
    | number text => exact fun _ _ _ _ => rfl
    | literal text => exact fun _ _ _ _ => rfl
    | paren inner => exact readsOn_paren (ih _ (by simp [CExpr.parts]))
    | call callee args =>
      exact readsOn_call (ih _ List.mem_cons_self)
        (fun _ member => ih _ (List.mem_cons_of_mem _ member)) here
    | arrow object field => exact readsOn_arrow (ih _ (by simp [CExpr.parts])) here.1
    | index object key =>
      exact readsOn_index (ih _ (by simp [CExpr.parts])) (ih _ (by simp [CExpr.parts])) here
    | after op target => exact readsOn_after (ih _ (by simp [CExpr.parts])) here
    | before op arg => exact readsOn_before (ih _ (by simp [CExpr.parts])) here
    | between op lhs rhs =>
      exact readsOn_between (ih _ (by simp [CExpr.parts])) (ih _ (by simp [CExpr.parts])) here.1
        here.2
    | conditional test yes no =>
      exact readsOn_conditional (ih _ (by simp [CExpr.parts])) (ih _ (by simp [CExpr.parts]))
        (ih _ (by simp [CExpr.parts])) here.1 here.2
    | assign op target value =>
      exact readsOn_assign (ih _ (by simp [CExpr.parts])) (ih _ (by simp [CExpr.parts])) here

theorem run_lexemes (grouped : tree.Grouped) : run (before []) tree.lexemes = some tree := by
  rw [← List.append_nil tree.lexemes, readsOn grouped [] [] tree.level_pos tree.level_pos]
  rfl

end Reader

/-- Grouped trees with the same lexemes are the same. -/
theorem CExpr.eq_of_lexemes_eq {tree other : CExpr} (grouped : tree.Grouped)
    (otherGrouped : other.Grouped) (same : tree.lexemes = other.lexemes) : tree = other := by
  apply Option.some.inj
  rw [← Reader.run_lexemes grouped, same, Reader.run_lexemes otherGrouped]

/-- A text reads as one tree only. -/
theorem ReadsInto.unique {text : String} {tree other : CExpr} (reads : ReadsInto text tree)
    (otherwise : ReadsInto text other) : tree = other :=
  CExpr.eq_of_lexemes_eq reads.2 otherwise.2 (otherwise.1.unique reads.1)

end ScriptToC
