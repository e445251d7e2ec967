import ScriptToC.Proofs.Grouping.Trees

/-!
# When the text of a tree splits into its lexemes

The text of a tree splits into the lexemes of the tree exactly if its names, numbers and literals
are such and two things do not happen: a minus or plus stands before an operand that begins with the
same sign, or a number that ends in an exponent letter stands before an arrow or an update
(`CExpr.lexes_iff`). Everything else is kept apart by spaces, or by marks of which no longer mark
begins.
-/

set_option autoImplicit false

namespace ScriptToC

open Ir

/-! ## Marks in texts -/

/-- A mark with which no longer mark begins. -/
def Mark.Alone (m : Mark) : Prop :=
  m ∈ Mark.all ∧ m.nexts = []

theorem Mark.alone_of_mem : ∀ m ∈ [openParen, closeParen, openBracket, closeBracket, comma, arrow,
    update .increment, update .decrement], m.Alone := by
  unfold Alone
  decide +kernel

theorem Mark.alone_update (op : UpdateOp) : (update op).Alone := by
  cases op <;> exact alone_of_mem _ (by decide)

/-- No mark contains a space. -/
theorem Mark.space_notMem_nexts : ∀ m ∈ all, ' ' ∉ m.nexts := by
  decide +kernel

section Marks

variable {m : Mark} {rest : List Char} {ls : List Lexeme}

theorem Mark.Alone.longest (alone : m.Alone) : (Lexeme.mark m).Longest rest :=
  Lexeme.longest_mark alone.1 (by simp [alone.2])

theorem lexes_space_iff : Lexes (' ' :: rest) ls ↔ Lexes rest ls :=
  Lexes.blank_iff (by decide)

/-- A mark with which no longer mark begins is taken before anything. -/
theorem lexes_alone_iff (alone : m.Alone) :
    Lexes (m.chars ++ rest) (.mark m :: ls) ↔ Lexes rest ls := by
  constructor
  · intro lexes
    exact (Lexes.cons_iff (l := .mark m).1 lexes).2.2
  · exact .lexeme (l := .mark m) alone.1 alone.longest

/-- Every mark is taken between spaces. -/
theorem lexes_spaced_iff :
    Lexes (CExpr.spaced m ++ rest) (.mark m :: ls) ↔ m ∈ Mark.all ∧ Lexes rest ls := by
  rw [CExpr.spaced, List.cons_append, List.append_assoc, lexes_space_iff]
  refine (Lexes.cons_iff (l := .mark m)).trans (and_congr_right fun known => ?_)
  have longest : (Lexeme.mark m).Longest (' ' :: rest) := by
    refine Lexeme.longest_mark known ?_
    rintro _ ⟨⟩
    exact Mark.space_notMem_nexts m known
  exact (and_iff_right longest).trans lexes_space_iff

end Marks

/-! ## The end of a tree -/

/-- A number that ends in the letter of an exponent would take a sign after it. -/
def Lexeme.endsInExponent : Lexeme → Bool
  | number text => text.toList.getLast?.any announcesExponent
  | _ => false

/-- A lexeme of C with which no longer mark begins. -/
def Lexeme.Final (l : Lexeme) : Prop :=
  l.Valid ∧ ∀ m, l = .mark m → m.Alone

/-- The characters that keep lexemes apart. -/
def breaks : List Char :=
  [' ', '(', ')', '[', ']', ',']

theorem isWordChar_break : ∀ c ∈ breaks, isWordChar c = false := by
  have others : (breaks.all fun c => isWordChar c = false) = true := by decide
  simpa only [List.all_eq_true, decide_eq_true_eq] using others

theorem continuesNumber_break : ∀ c ∈ breaks, ∀ before, continuesNumber before c = false := by
  have others : ∀ c ∈ breaks, c ≠ '.' ∧ c ≠ '+' ∧ c ≠ '-' := by simp [breaks]
  intro c isBreak before
  obtain ⟨noPoint, noPlus, noMinus⟩ := others c isBreak
  simp [continuesNumber, isWordChar_break c isBreak, noPoint, noPlus, noMinus]

namespace Lexeme.Final

variable {l : Lexeme} {c : Char} {rest : List Char}

/-- A final lexeme ends before whatever does not continue words and numbers. -/
theorem longest (final : l.Final) (noWord : ∀ c ∈ rest.head?, isWordChar c = false)
    (noNumber : ∀ c ∈ rest.head?, ∀ text, l = .number text → ∀ before ∈ text.toList.getLast?,
      continuesNumber before c = false) : l.Longest rest := by
  obtain ⟨valid, alone⟩ := final
  cases l with
  | word text => exact longest_word valid noWord
  | number text => exact (longest_number_iff valid).2 fun c next => noNumber c next text rfl
  | literal text => exact longest_literal valid
  | mark m => exact (alone m rfl).longest

theorem longest_break (final : l.Final) (isBreak : ∀ c ∈ rest.head?, c ∈ breaks) :
    l.Longest rest :=
  final.longest (fun c next => isWordChar_break c (isBreak c next))
    fun c next _ _ before _ => continuesNumber_break c (isBreak c next) before

/-- Only the sign of an exponent would be taken with the lexeme before it. -/
theorem longest_sign_iff (final : l.Final) (sign : c = '+' ∨ c = '-') :
    l.Longest (c :: rest) ↔ l.endsInExponent = false := by
  have noWord : isWordChar c = false := by
    rcases sign with rfl | rfl <;> decide
  have continues (before : Char) : continuesNumber before c = announcesExponent before := by
    rcases sign with rfl | rfl <;> simp [continuesNumber, noWord]
  constructor
  · intro longest
    cases l with
    | number text =>
      have stops := (longest_number_iff final.1).1 longest c rfl
      simp only [endsInExponent, Option.any_eq_false, ← continues]
      simpa using stops
    | _ => rfl
  · intro noExponent
    refine final.longest (by simpa using noWord) ?_
    rintro _ ⟨⟩ text rfl before last
    rw [endsInExponent, Option.mem_def.1 last, Option.any_some] at noExponent
    rw [continues, noExponent]

end Lexeme.Final

namespace CExpr

/-- The last lexeme of a tree. -/
@[simp]
def last : CExpr → Lexeme
  | name text => .word text
  | number text => .number text
  | literal text => .literal text
  | paren _ | call .. => .mark .closeParen
  | arrow _ field => .word field
  | index .. => .mark .closeBracket
  | after op _ => .mark (.update op)
  | before _ arg => arg.last
  | between _ _ rhs => rhs.last
  | conditional _ _ no => no.last
  | assign _ _ value => value.last

end CExpr

/-- The sign that would become part of an operator before it. -/
def OuterOp.clash : OuterOp → Option Char
  | unary .neg => some '-'
  | unary .plus => some '+'
  | _ => none

namespace CExpr

/-- The lexemes at the root of a tree are lexemes of C and keep apart. -/
@[simp]
def SpacedHere : CExpr → Prop
  | name text => isWord text = true
  | number text => isNumber text
  | literal text => isLiteral text = true
  | paren _ | call .. | index .. | between .. | conditional .. => True
  | arrow object field => isWord field = true ∧ object.last.endsInExponent = false
  | after _ target => target.last.endsInExponent = false
  | before op arg => ∀ sign ∈ op.clash, sign ∉ arg.chars.head?
  | assign op _ _ => .assign op ∈ Mark.all

/-- The last lexeme of a spaced tree is a final one. -/
theorem final_last {tree : CExpr} (spaced : tree.Every SpacedHere) : tree.last.Final := by
  have mark {m : Mark} (alone : m.Alone) : (Lexeme.mark m).Final :=
    ⟨alone.1, by rintro _ ⟨⟩; exact alone⟩
  induction spaced with
  | @intro tree here inside ih =>
    cases tree with
    | name text => exact ⟨here, nofun⟩
    | number text => exact ⟨here, nofun⟩
    | literal text => exact ⟨here, nofun⟩
    | paren | call => exact mark (Mark.alone_of_mem .closeParen (by decide))
    | arrow object field => exact ⟨here.1, nofun⟩
    | index => exact mark (Mark.alone_of_mem .closeBracket (by decide))
    | after op => exact mark (Mark.alone_update op)
    | before op arg => exact ih arg (by simp [parts])
    | between op lhs rhs => exact ih rhs (by simp [parts])
    | conditional test yes no => exact ih no (by simp [parts])
    | assign op target value => exact ih value (by simp [parts])

/-! ## The start of a tree -/

/-- No tree begins with what could go on with the mark of an operator before it, signs aside. -/
theorem chars_first {tree : CExpr} (spaced : tree.Every SpacedHere) :
    ∃ c ∈ tree.chars.head?, c ≠ '=' ∧ c ≠ '>' := by
  have leaf {l : Lexeme} (valid : l.Valid) (kind : l.kind ≠ .mark) :
      ∃ c ∈ l.chars.head?, c ≠ '=' ∧ c ≠ '>' := by
    obtain ⟨c, tail, eq, same⟩ := valid.first
    refine ⟨c, by rw [eq]; rfl, ?_, ?_⟩ <;>
    · rintro rfl
      exact kind (Option.some.inj same).symm
  have head {first more : List Char} (begins : ∃ c ∈ first.head?, c ≠ '=' ∧ c ≠ '>') :
      ∃ c ∈ (first ++ more).head?, c ≠ '=' ∧ c ≠ '>' := by
    obtain ⟨c, isFirst, other⟩ := begins
    exact ⟨c, by simp [List.head?_append, Option.mem_def.1 isFirst], other⟩
  induction spaced with
  | @intro tree here inside ih =>
    cases tree with
    | name text => exact leaf (l := .word text) here (by simp [Lexeme.kind])
    | number text => exact leaf (l := .number text) here (by simp [Lexeme.kind])
    | literal text => exact leaf (l := .literal text) here (by simp [Lexeme.kind])
    | paren inner => exact head ⟨'(', rfl, by decide⟩
    | before op arg =>
      rcases op with op | _ | op
      · cases op <;> exact head ⟨_, rfl, by decide⟩
      · exact head ⟨'*', rfl, by decide⟩
      · cases op <;> exact head ⟨_, rfl, by decide⟩
    | _ => exact head (ih _ List.mem_cons_self)

end CExpr

namespace OuterOp

theorem mark_mem_all (op : OuterOp) : op.mark ∈ Mark.all := by
  rcases op with op | _ | op
  · cases op <;> decide
  · decide
  · cases op <;> decide

/-- Longer marks than those of operators before operands end in a few characters only. -/
theorem nexts_mark (op : OuterOp) : ∀ c ∈ op.mark.nexts, c = '=' ∨ c = '>' ∨ op.clash = some c := by
  suffices op.mark.nexts.all (fun c => c = '=' ∨ c = '>' ∨ op.clash = some c) = true by
    simpa only [List.all_eq_true, decide_eq_true_eq] using this
  rcases op with op | _ | op
  · cases op <;> decide +kernel
  · decide +kernel
  · cases op <;> decide +kernel

/-- The operator and its sign are a mark together. -/
theorem clash_mark {op : OuterOp} {sign : Char} (clash : op.clash = some sign) :
    ∃ m ∈ Mark.all, m.chars = op.mark.chars ++ [sign] := by
  rcases op with op | _ | op
  · cases op <;> cases clash
    · exact ⟨.update .decrement, by decide, rfl⟩
    · exact ⟨.update .increment, by decide, rfl⟩
  · cases clash
  · cases clash

/-- An operator before an operand is taken unless the operand begins with its sign. -/
theorem longest_mark_iff {op : OuterOp} {operand : List Char}
    (begins : ∃ c ∈ operand.head?, c ≠ '=' ∧ c ≠ '>') :
    (Lexeme.mark op.mark).Longest operand ↔ ∀ sign ∈ op.clash, sign ∉ operand.head? := by
  constructor
  · intro longest sign clash first
    obtain ⟨m, known, together⟩ := clash_mark clash
    obtain ⟨tail, rfl⟩ := List.head?_eq_some_iff.1 first
    have bounded := longest (.mark m) known ⟨tail, by simp [Lexeme.chars, together]⟩
    simp only [Lexeme.chars, together, List.length_append, List.length_singleton] at bounded
    exact Nat.not_succ_le_self _ bounded
  · intro apart
    obtain ⟨c, first, notEq, notGt⟩ := begins
    refine Lexeme.longest_mark op.mark_mem_all ?_
    intro d isFirst next
    obtain rfl := Option.mem_unique first isFirst
    rcases op.nexts_mark c next with rfl | rfl | clash
    · exact notEq rfl
    · exact notGt rfl
    · exact apart c clash first

end OuterOp

/-! ## Splitting -/

namespace CExpr

/-- The text of a tree at the head of a text splits into the lexemes of the tree exactly if the tree
is spaced and its last lexeme ends there. -/
def SplitsAt (tree : CExpr) : Prop :=
  ∀ (rest : List Char) (ls : List Lexeme),
    Lexes (tree.chars ++ rest) (tree.lexemes ++ ls) ↔
      tree.Every SpacedHere ∧ tree.last.Longest rest ∧ Lexes rest ls

section Constructs

variable {inner callee object key target arg lhs rhs test yes no value : CExpr} {rest : List Char}
  {ls : List Lexeme}

/-- A tree ends before what keeps lexemes apart. -/
theorem SplitsAt.before_break {tree : CExpr} (splits : tree.SplitsAt)
    (isBreak : ∀ c ∈ rest.head?, c ∈ breaks) :
    Lexes (tree.chars ++ rest) (tree.lexemes ++ ls) ↔ tree.Every SpacedHere ∧ Lexes rest ls := by
  refine (splits rest ls).trans (and_congr_right fun spaced => ?_)
  exact and_iff_right ((final_last spaced).longest_break isBreak)

/-- Before a sign a tree ends unless it ends in an exponent. -/
theorem SplitsAt.before_sign {tree : CExpr} (splits : tree.SplitsAt)
    (sign : ∃ c ∈ rest.head?, c = '+' ∨ c = '-') :
    Lexes (tree.chars ++ rest) (tree.lexemes ++ ls) ↔
      tree.Every SpacedHere ∧ tree.last.endsInExponent = false ∧ Lexes rest ls := by
  obtain ⟨c, first, sign⟩ := sign
  obtain ⟨tail, rfl⟩ := List.head?_eq_some_iff.1 first
  refine (splits _ ls).trans (and_congr_right fun spaced => ?_)
  rw [(final_last spaced).longest_sign_iff sign]

theorem splitsAt_name (text : String) : (name text).SplitsAt := by
  intro rest ls
  refine (Lexes.cons_iff (l := .word text)).trans ?_
  rw [every_iff (name text)]
  simp [parts, Lexeme.Valid]

theorem splitsAt_number (text : String) : (number text).SplitsAt := by
  intro rest ls
  refine (Lexes.cons_iff (l := .number text)).trans ?_
  rw [every_iff (number text)]
  simp [parts, Lexeme.Valid]

theorem splitsAt_literal (text : String) : (literal text).SplitsAt := by
  intro rest ls
  refine (Lexes.cons_iff (l := .literal text)).trans ?_
  rw [every_iff (literal text)]
  simp [parts, Lexeme.Valid]

theorem splitsAt_paren (splits : inner.SplitsAt) : (paren inner).SplitsAt := by
  intro rest ls
  have opening := Mark.alone_of_mem .openParen (by decide)
  have closing := Mark.alone_of_mem .closeParen (by decide)
  calc
    _ ↔ Lexes (Mark.openParen.chars ++ (inner.chars ++ (Mark.closeParen.chars ++ rest)))
        (.mark .openParen :: (inner.lexemes ++ .mark .closeParen :: ls)) := by
      simp
    _ ↔ inner.Every SpacedHere ∧ Lexes rest ls := by
      rw [lexes_alone_iff opening, splits.before_break (by rintro _ ⟨⟩; decide),
        lexes_alone_iff closing]
    _ ↔ _ := by
      rw [every_iff (paren inner)]
      simp [parts, closing.longest]

theorem lexes_args_iff {args : List CExpr} (each : ∀ part ∈ arg :: args, part.SplitsAt) :
    Lexes ((Mark.comma.chars ++ [' ']).intercalate (charsOf (arg :: args)) ++
          (Mark.closeParen.chars ++ rest))
        ([.mark .comma].intercalate (lexemesOf (arg :: args)) ++ .mark .closeParen :: ls) ↔
      (∀ part ∈ arg :: args, part.Every SpacedHere) ∧ Lexes rest ls := by
  have closing := Mark.alone_of_mem .closeParen (by decide)
  have splits := each arg List.mem_cons_self
  induction args generalizing arg with
  | nil =>
    rw [charsOf, charsOf, lexemesOf, lexemesOf, List.intercalate_singleton,
      List.intercalate_singleton, splits.before_break (by rintro _ ⟨⟩; decide),
      lexes_alone_iff closing]
    simp
  | cons next args ih =>
    have others := ih (fun part member => each part (List.mem_cons_of_mem _ member))
      (each next (by simp))
    calc
      _ ↔ Lexes (arg.chars ++ (Mark.comma.chars ++ (' ' ::
            ((Mark.comma.chars ++ [' ']).intercalate (charsOf (next :: args)) ++
              (Mark.closeParen.chars ++ rest)))))
          (arg.lexemes ++ (.mark .comma ::
            ([.mark .comma].intercalate (lexemesOf (next :: args)) ++
              .mark .closeParen :: ls))) := by
        simp
      _ ↔ arg.Every SpacedHere ∧ (∀ part ∈ next :: args, part.Every SpacedHere) ∧
          Lexes rest ls := by
        rw [splits.before_break (by rintro _ ⟨⟩; decide),
          lexes_alone_iff (Mark.alone_of_mem .comma (by decide)), lexes_space_iff]
        exact and_congr_right fun _ => others
      _ ↔ _ := by
        rw [← and_assoc, ← List.forall_mem_cons]

theorem splitsAt_call {args : List CExpr} (splits : callee.SplitsAt)
    (each : ∀ arg ∈ args, arg.SplitsAt) : (call callee args).SplitsAt := by
  intro rest ls
  have opening := Mark.alone_of_mem .openParen (by decide)
  have closing := Mark.alone_of_mem .closeParen (by decide)
  have inside : Lexes ((Mark.comma.chars ++ [' ']).intercalate (charsOf args) ++
        (Mark.closeParen.chars ++ rest))
      ([.mark .comma].intercalate (lexemesOf args) ++ .mark .closeParen :: ls) ↔
        (∀ arg ∈ args, arg.Every SpacedHere) ∧ Lexes rest ls := by
    cases args with
    | nil => exact (lexes_alone_iff closing).trans (by simp)
    | cons arg args => exact lexes_args_iff each
  calc
    _ ↔ Lexes (callee.chars ++ (Mark.openParen.chars ++
          ((Mark.comma.chars ++ [' ']).intercalate (charsOf args) ++
            (Mark.closeParen.chars ++ rest))))
        (callee.lexemes ++ (.mark .openParen ::
          ([.mark .comma].intercalate (lexemesOf args) ++ .mark .closeParen :: ls))) := by
      simp
    _ ↔ callee.Every SpacedHere ∧ (∀ arg ∈ args, arg.Every SpacedHere) ∧ Lexes rest ls := by
      rw [splits.before_break (by rintro _ ⟨⟩; decide), lexes_alone_iff opening, inside]
    _ ↔ _ := by
      rw [every_iff (call callee args)]
      simp [parts, closing.longest, and_assoc]

theorem splitsAt_arrow {field : String} (splits : object.SplitsAt) :
    (arrow object field).SplitsAt := by
  intro rest ls
  calc
    _ ↔ Lexes (object.chars ++ (Mark.arrow.chars ++ (field.toList ++ rest)))
        (object.lexemes ++ (.mark .arrow :: .word field :: ls)) := by
      simp
    _ ↔ object.Every SpacedHere ∧ object.last.endsInExponent = false ∧ isWord field = true ∧
        (Lexeme.word field).Longest rest ∧ Lexes rest ls := by
      rw [splits.before_sign ⟨'-', rfl, .inr rfl⟩,
        lexes_alone_iff (Mark.alone_of_mem .arrow (by decide))]
      exact and_congr_right fun _ => and_congr_right fun _ => Lexes.cons_iff (l := .word field)
    _ ↔ _ := by
      rw [every_iff (arrow object field)]
      simp only [SpacedHere, parts, last, List.forall_mem_singleton]
      tauto

theorem splitsAt_index (splits : object.SplitsAt) (splitsKey : key.SplitsAt) :
    (index object key).SplitsAt := by
  intro rest ls
  have opening := Mark.alone_of_mem .openBracket (by decide)
  have closing := Mark.alone_of_mem .closeBracket (by decide)
  calc
    _ ↔ Lexes (object.chars ++ (Mark.openBracket.chars ++
          (key.chars ++ (Mark.closeBracket.chars ++ rest))))
        (object.lexemes ++ (.mark .openBracket ::
          (key.lexemes ++ .mark .closeBracket :: ls))) := by
      simp
    _ ↔ object.Every SpacedHere ∧ key.Every SpacedHere ∧ Lexes rest ls := by
      rw [splits.before_break (by rintro _ ⟨⟩; decide), lexes_alone_iff opening,
        splitsKey.before_break (by rintro _ ⟨⟩; decide), lexes_alone_iff closing]
    _ ↔ _ := by
      rw [every_iff (index object key)]
      simp [parts, closing.longest, and_assoc]

theorem splitsAt_after {op : UpdateOp} (splits : target.SplitsAt) :
    (after op target).SplitsAt := by
  intro rest ls
  have sign : ∃ c ∈ ((Mark.update op).chars ++ rest).head?, c = '+' ∨ c = '-' := by
    cases op
    · exact ⟨'+', rfl, .inl rfl⟩
    · exact ⟨'-', rfl, .inr rfl⟩
  calc
    _ ↔ Lexes (target.chars ++ ((Mark.update op).chars ++ rest))
        (target.lexemes ++ .mark (.update op) :: ls) := by
      simp
    _ ↔ target.Every SpacedHere ∧ target.last.endsInExponent = false ∧ Lexes rest ls := by
      rw [splits.before_sign sign, lexes_alone_iff (Mark.alone_update op)]
    _ ↔ _ := by
      rw [every_iff (after op target)]
      simp only [SpacedHere, parts, last, List.forall_mem_singleton,
        (Mark.alone_update op).longest]
      tauto

theorem splitsAt_before {op : OuterOp} (splits : arg.SplitsAt) : (before op arg).SplitsAt := by
  intro rest ls
  have first (spaced : arg.Every SpacedHere) : (arg.chars ++ rest).head? = arg.chars.head? := by
    obtain ⟨c, isFirst, -⟩ := chars_first spaced
    simp [List.head?_append, Option.mem_def.1 isFirst]
  have longest (spaced : arg.Every SpacedHere) :
      (Lexeme.mark op.mark).Longest (arg.chars ++ rest) ↔
        ∀ sign ∈ op.clash, sign ∉ arg.chars.head? := by
    rw [← first spaced]
    exact OuterOp.longest_mark_iff (by rw [first spaced]; exact chars_first spaced)
  calc
    _ ↔ Lexes ((Lexeme.mark op.mark).chars ++ (arg.chars ++ rest))
        (.mark op.mark :: (arg.lexemes ++ ls)) := by
      simp [Lexeme.chars]
    _ ↔ (Lexeme.mark op.mark).Longest (arg.chars ++ rest) ∧ arg.Every SpacedHere ∧
        arg.last.Longest rest ∧ Lexes rest ls := by
      rw [Lexes.cons_iff, splits]
      exact and_iff_right op.mark_mem_all
    _ ↔ _ := by
      rw [every_iff (before op arg)]
      simp only [SpacedHere, parts, last, List.forall_mem_singleton]
      grind

theorem splitsAt_between {op : InnerOp} (left : lhs.SplitsAt) (right : rhs.SplitsAt) :
    (between op lhs rhs).SplitsAt := by
  intro rest ls
  calc
    _ ↔ Lexes (lhs.chars ++ (spaced (.inner op) ++ (rhs.chars ++ rest)))
        (lhs.lexemes ++ .mark (.inner op) :: (rhs.lexemes ++ ls)) := by
      simp
    _ ↔ lhs.Every SpacedHere ∧ rhs.Every SpacedHere ∧ rhs.last.Longest rest ∧ Lexes rest ls := by
      rw [left.before_break (by rintro _ ⟨⟩; decide), lexes_spaced_iff,
        and_iff_right (Mark.inner_mem_all op), right]
    _ ↔ _ := by
      rw [every_iff (between op lhs rhs)]
      simp [parts, and_assoc]

theorem splitsAt_conditional (splitsTest : test.SplitsAt) (splitsYes : yes.SplitsAt)
    (splitsNo : no.SplitsAt) : (conditional test yes no).SplitsAt := by
  intro rest ls
  have question : Mark.question ∈ Mark.all := by decide
  have colon : Mark.colon ∈ Mark.all := by decide
  calc
    _ ↔ Lexes (test.chars ++ (spaced .question ++
          (yes.chars ++ (spaced .colon ++ (no.chars ++ rest)))))
        (test.lexemes ++ .mark .question ::
          (yes.lexemes ++ .mark .colon :: (no.lexemes ++ ls))) := by
      simp
    _ ↔ test.Every SpacedHere ∧ yes.Every SpacedHere ∧ no.Every SpacedHere ∧
        no.last.Longest rest ∧ Lexes rest ls := by
      rw [splitsTest.before_break (by rintro _ ⟨⟩; decide), lexes_spaced_iff,
        and_iff_right question, splitsYes.before_break (by rintro _ ⟨⟩; decide),
        lexes_spaced_iff, and_iff_right colon, splitsNo]
    _ ↔ _ := by
      rw [every_iff (conditional test yes no)]
      simp [parts, and_assoc]

theorem splitsAt_assign {op : Option BinaryOp} (splits : target.SplitsAt)
    (splitsValue : value.SplitsAt) : (assign op target value).SplitsAt := by
  intro rest ls
  calc
    _ ↔ Lexes (target.chars ++ (spaced (.assign op) ++ (value.chars ++ rest)))
        (target.lexemes ++ .mark (.assign op) :: (value.lexemes ++ ls)) := by
      simp
    _ ↔ target.Every SpacedHere ∧ .assign op ∈ Mark.all ∧ value.Every SpacedHere ∧
        value.last.Longest rest ∧ Lexes rest ls := by
      rw [splits.before_break (by rintro _ ⟨⟩; decide), lexes_spaced_iff, splitsValue]
    _ ↔ _ := by
      rw [every_iff (assign op target value)]
      simp only [SpacedHere, parts, last, List.forall_mem_cons, List.not_mem_nil, false_implies,
        implies_true, and_true]
      tauto

end Constructs

/-- The text of a tree splits into its lexemes exactly if the tree is spaced. -/
theorem splitsAt (tree : CExpr) : tree.SplitsAt := by
  induction tree using induct with
  | step tree ih =>
    cases tree with
    | name text => exact splitsAt_name text
    | number text => exact splitsAt_number text
    | literal text => exact splitsAt_literal text
    | paren inner => exact splitsAt_paren (ih _ (by simp [parts]))
    | call callee args =>
      exact splitsAt_call (ih _ List.mem_cons_self)
        fun _ member => ih _ (List.mem_cons_of_mem _ member)
    | arrow object field => exact splitsAt_arrow (ih _ (by simp [parts]))
    | index object key =>
      exact splitsAt_index (ih _ (by simp [parts])) (ih _ (by simp [parts]))
    | after op target => exact splitsAt_after (ih _ (by simp [parts]))
    | before op arg => exact splitsAt_before (ih _ (by simp [parts]))
    | between op lhs rhs =>
      exact splitsAt_between (ih _ (by simp [parts])) (ih _ (by simp [parts]))
    | conditional test yes no =>
      exact splitsAt_conditional (ih _ (by simp [parts])) (ih _ (by simp [parts]))
        (ih _ (by simp [parts]))
    | assign op target value =>
      exact splitsAt_assign (ih _ (by simp [parts])) (ih _ (by simp [parts]))

/-- The text of a tree splits into its lexemes exactly if the tree is spaced. -/
theorem lexes_iff (tree : CExpr) :
    Lexes tree.chars tree.lexemes ↔ tree.Every SpacedHere := by
  have whole := tree.splitsAt [] []
  rw [List.append_nil, List.append_nil] at whole
  refine whole.trans (and_iff_left_iff_imp.2 fun spaced => ⟨?_, .done⟩)
  exact (final_last spaced).longest_break nofun

end CExpr

end ScriptToC
