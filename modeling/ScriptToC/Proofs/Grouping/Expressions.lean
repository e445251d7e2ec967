import ScriptToC.Proofs.Grouping.Parsed
import ScriptToC.Proofs.Grouping.Reader

/-!
# When the text of an expression keeps the grouping

No parentheses are added to those of the author. So the text of an expression is read back as the
tree of the expression exactly if that tree is clear (`exprText_reads_iff`): no minus or plus stands
right before an operand that begins with the same sign, no type ends an operand that would not end
without it, no assignment comes last in a conditional expression, a printed truth value is neither
an assignment nor a conditional expression unless in parentheses, and names and fields are names in
C. Expressions with clear trees have the same text only if they have the same tree
(`exprTree_eq_of_same_text`).
-/

set_option autoImplicit false

namespace ScriptToC.Emit

open Ir

section Lowered

variable {types : Types} {e : Source.Expr} {ir : Expr} {declared : Lowering.Declared}
  {before after : Lowering.State} {first last : Headers} {text : String}

/-- The text of a parsed expression is the text of its tree, which fits. -/
theorem stands_exprText (parsed : e.Parsed)
    (lower : Lowering.lowerExpr e declared before = .ok (ir, after))
    (emit : exprText types ir first = (.ok text, last)) :
    Stands ir.level (exprTree types ir) text :=
  gives_exprText types ir (Lowering.yields_lowerExpr e parsed lower).1 emit

/-- C reads the text of an expression as the tree of the expression, and as nothing else, exactly if
that tree is clear. -/
theorem exprText_reads_iff (parsed : e.Parsed)
    (lower : Lowering.lowerExpr e declared before = .ok (ir, after))
    (emit : exprText types ir first = (.ok text, last)) :
    (∀ tree, ReadsInto text tree ↔ tree = exprTree types ir) ↔ (exprTree types ir).Clear := by
  have stands := stands_exprText parsed lower emit
  rw [← reads_iff stands.fits stands.same]
  constructor
  · intro only
    exact (only _).2 rfl
  · intro reads tree
    constructor
    · exact fun otherwise => otherwise.unique reads
    · rintro rfl
      exact reads

/-- Two expressions with clear trees have the same text only if they have the same tree. -/
theorem exprTree_eq_of_same_text {types' : Types} {e' : Source.Expr} {ir' : Expr}
    {declared' : Lowering.Declared} {before' after' : Lowering.State} {first' last' : Headers}
    (parsed : e.Parsed) (lower : Lowering.lowerExpr e declared before = .ok (ir, after))
    (emit : exprText types ir first = (.ok text, last)) (clear : (exprTree types ir).Clear)
    (parsed' : e'.Parsed) (lower' : Lowering.lowerExpr e' declared' before' = .ok (ir', after'))
    (emit' : exprText types' ir' first' = (.ok text, last'))
    (clear' : (exprTree types' ir').Clear) : exprTree types ir = exprTree types' ir' := by
  have stands := stands_exprText parsed lower emit
  have stands' := stands_exprText parsed' lower' emit'
  exact ReadsInto.unique ((reads_iff stands.fits stands.same).2 clear)
    ((reads_iff stands'.fits stands'.same).2 clear')

end Lowered

/-! ## Two signs in a row -/

theorem lowers_of_map {e : Source.Expr} {ir : Expr}
    (same : (Lowering.lowerExpr e {} {}).toOption.map Prod.fst = some ir) :
    ∃ after, Lowering.lowerExpr e {} {} = .ok (ir, after) := by
  rcases eq : Lowering.lowerExpr e {} {} with cause | ⟨found, after⟩
  · rw [eq] at same
    cases same
  · rw [eq] at same
    cases same
    exact ⟨after, rfl⟩

/-- A product of a variable and a difference, in which a sign is written after an operator. -/
def scaledDifference : Source.Expr :=
  .binary ⟨0, 12⟩ "*" (.ident ⟨0, 1⟩ "a")
    (.paren ⟨4, 12⟩ (.binary ⟨5, 11⟩ "-" (.ident ⟨5, 6⟩ "b")
      (.unary ⟨9, 11⟩ "-" (.ident ⟨10, 11⟩ "c"))))

/-- The product after lowering. -/
def scaledDifferenceLowered : Expr :=
  .binary ⟨6, ⟨0, 12⟩⟩ .mul (.ident ⟨0, ⟨0, 1⟩⟩ "a")
    (.paren ⟨5, ⟨4, 12⟩⟩ (.binary ⟨4, ⟨5, 11⟩⟩ .sub (.ident ⟨1, ⟨5, 6⟩⟩ "b")
      (.unary ⟨3, ⟨9, 11⟩⟩ .neg (.ident ⟨2, ⟨10, 11⟩⟩ "c"))))

/-- The space before the sign keeps it apart from the operator. -/
theorem exprText_reads_iff_scaledDifference : ∃ after,
    scaledDifference.Parsed ∧
      Lowering.lowerExpr scaledDifference {} {} = .ok (scaledDifferenceLowered, after) ∧
      exprText (fun _ => none) scaledDifferenceLowered {} = (.ok "a * (b - -c)", {}) ∧
      ((∀ tree, ReadsInto "a * (b - -c)" tree ↔
          tree = exprTree (fun _ => none) scaledDifferenceLowered) ↔
        (exprTree (fun _ => none) scaledDifferenceLowered).Clear) := by
  have parsed : scaledDifference.Parsed := by
    simp only [scaledDifference, Source.Expr.Parsed, Source.Expr.level, Source.precedence]
    decide
  have emit : exprText (fun _ => none) scaledDifferenceLowered {} = (.ok "a * (b - -c)", {}) := rfl
  obtain ⟨after, lower⟩ : ∃ after, Lowering.lowerExpr scaledDifference {} {} =
      .ok (scaledDifferenceLowered, after) := lowers_of_map rfl
  exact ⟨after, parsed, lower, emit, exprText_reads_iff parsed lower emit⟩

/-- The minus of a minus. -/
def negatedTwice : Source.Expr :=
  .unary ⟨0, 4⟩ "-" (.unary ⟨2, 4⟩ "-" (.ident ⟨3, 4⟩ "x"))

/-- The minus of a minus after lowering. -/
def negatedTwiceLowered : Expr :=
  .unary ⟨2, ⟨0, 4⟩⟩ .neg (.unary ⟨1, ⟨2, 4⟩⟩ .neg (.ident ⟨0, ⟨3, 4⟩⟩ "x"))

/-- Two signs that were written apart become the mark of a decrement. -/
theorem negatedTwice_reads_as_decrement : ∃ after,
    negatedTwice.Parsed ∧
      Lowering.lowerExpr negatedTwice {} {} = .ok (negatedTwiceLowered, after) ∧
      exprText (fun _ => none) negatedTwiceLowered {} = (.ok "--x", {}) ∧
      ReadsInto "--x" (.before (.update .decrement) (.name "x")) ∧
      ¬ ReadsInto "--x" (exprTree (fun _ => none) negatedTwiceLowered) := by
  have parsed : negatedTwice.Parsed := by
    simp only [negatedTwice, Source.Expr.Parsed, Source.Expr.level]
    decide
  obtain ⟨after, lower⟩ : ∃ after, Lowering.lowerExpr negatedTwice {} {} =
      .ok (negatedTwiceLowered, after) := lowers_of_map rfl
  have decrement : ReadsInto "--x" (.before (.update .decrement) (.name "x")) := by
    have name : (CExpr.name "x").Every CExpr.FitsHere :=
      .intro (by decide : isWord "x" = true) nofun
    have plain : (CExpr.name "x").Clear := .intro (by decide : "x" ∉ CExpr.keywords) nofun
    have fits : (CExpr.before (.update .decrement) (.name "x")).Every CExpr.FitsHere :=
      .intro (by decide : 13 ≤ 15) (List.forall_mem_singleton.2 name)
    exact (reads_iff fits rfl).2 (.intro nofun (List.forall_mem_singleton.2 plain))
  refine ⟨after, parsed, lower, rfl, decrement, fun reads => ?_⟩
  cases reads.unique decrement

end ScriptToC.Emit
