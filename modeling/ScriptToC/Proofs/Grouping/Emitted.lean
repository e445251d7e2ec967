import ScriptToC.Proofs.Emission.Run
import ScriptToC.Proofs.Grouping.Expected

/-!
# The tree that an emitted text has

The text that is emitted for an expression is the text of the tree of the expression, and the tree
fits if the expression does (`gives_exprText`).
-/

set_option autoImplicit false

namespace ScriptToC

open Ir

namespace Emit

/-! ## Results of steps -/

section Steps

variable {α β : Type} {P : α → Prop} {Q : β → Prop}

/-- Whatever a step on expressions gives is of this kind. -/
def Gives (m : ExprM α) (P : α → Prop) : Prop :=
  ∀ ⦃first last : Headers⦄ ⦃a : α⦄, m first = (.ok a, last) → P a

theorem gives_pure {a : α} (here : P a) : Gives (pure a) P := by
  intro first last b run
  obtain ⟨rfl, -⟩ := exprM_pure_ok.1 run
  exact here

theorem gives_needs (header : String) : Gives (needs header) fun _ => True :=
  fun _ _ _ _ => trivial

theorem gives_unsupported (span : Span) (cause : Unsupported) :
    Gives (unsupported span cause) P := by
  intro first last a run
  cases run

theorem Gives.bind {m : ExprM α} {next : α → ExprM β} (before : Gives m P)
    (others : ∀ a, P a → Gives (next a) Q) : Gives (m >>= next) Q := by
  intro first last b run
  obtain ⟨a, middle, start, rest⟩ := exprM_bind_ok.1 run
  exact others a (before start) rest

end Steps

/-! ## The shapes of C text -/

section Steps

variable (types : Types) {level other : Nat} {tree keyTree : CExpr}

theorem gives_conditionText (e : Expr) {text : ExprM String}
    (part : Gives text (Stands e.level tree)) :
    Gives (conditionText types e text) (Stands (min e.level 13) (conditionTree types e tree)) := by
  refine part.bind fun text stands => ?_
  unfold conditionTree
  split
  next =>
    refine gives_pure ?_
    split
    next named =>
      have primary : 13 ≤ e.level := by rw [e.level_of_ident? named]; decide
      exact (stands_before .deref stands primary).weaken (Nat.min_le_right _ _)
    next =>
      have written : "*(" ++ text ++ ")" = "*" ++ ("(" ++ text ++ ")") := by
        rw [← String.append_assoc, ← String.append_assoc]
        rfl
      rw [written]
      exact (stands_before .deref (stands_paren stands) (by decide)).weaken
        (Nat.min_le_right _ _)
  next => exact gives_pure (stands.weaken (Nat.min_le_left _ _))

theorem gives_memberText {node : Node} {object : Expr} {property : String}
    {objectText : ExprM String} (part : Gives objectText (Stands level tree))
    (binds : 14 ≤ level) :
    Gives (memberText types node object property objectText)
      (Stands 14 (memberTree types object property tree)) := by
  refine part.bind fun text stands => ?_
  unfold memberTree
  dsimp only
  generalize typeOf types object = type
  cases type with
  | array element capacity dynamic =>
    dsimp only
    split
    · refine gives_pure ?_
      cases dynamic with
      | true =>
        have written : text ++ "->size" = text ++ "->" ++ "size" := by
          rw [String.append_assoc]
          rfl
        rw [if_pos rfl, if_pos rfl, written]
        exact stands_arrow stands binds
      | false => exact (stands_number (isNumber_toString capacity)).weaken (Nat.le_succ 14)
    · exact gives_unsupported _ _
  | string =>
    dsimp only
    split
    · refine (gives_needs "string").bind fun _ _ => gives_pure ?_
      exact stands_call_one (by decide) (by decide) stands (by omega)
    · exact gives_unsupported _ _
  | struct => exact gives_pure (stands_arrow stands binds)
  | dict =>
    exact gives_pure (stands_call_two (by decide) (by decide) stands (by omega)
      (stands_literal (isLiteral_quoted property)) (by decide))
  | _ => exact gives_unsupported _ _

theorem gives_indexText {node : Node} {object key : Expr} {objectText keyText : ExprM String}
    (part : Gives objectText (Stands level tree)) (binds : 14 ≤ level)
    (keyPart : Gives keyText (Stands other keyTree)) (enough : 1 ≤ other) :
    Gives (indexText types node object key objectText keyText)
      (Stands 14 (indexTree types object key tree keyTree)) := by
  refine part.bind fun text stands => keyPart.bind fun keyText keyStands => ?_
  unfold indexTree
  dsimp only
  generalize typeOf types object = type
  cases type with
  | array element capacity dynamic =>
    cases dynamic with
    | true =>
      have written : text ++ "->data[" ++ keyText ++ "]" =
          text ++ "->" ++ "data" ++ "[" ++ keyText ++ "]" := by
        simp only [String.append_assoc]
        rfl
      refine gives_pure ?_
      rw [written]
      exact stands_index (stands_arrow stands binds) le_rfl keyStands
    | false => exact gives_pure (stands_index stands binds keyStands)
  | dict =>
    exact gives_pure (stands_call_two (by decide) (by decide) stands (by omega) keyStands enough)
  | struct =>
    cases key with
    | string _ field => exact gives_pure (stands_arrow stands binds)
    | _ => exact gives_unsupported _ _
  | _ => exact gives_unsupported _ _

theorem gives_binaryText {node : Node} {op : BinaryOp} {lhs rhs : Expr}
    {lhsText rhsText : ExprM String} (left : Gives lhsText (Stands level tree))
    (enough : 1 ≤ level) (right : Gives rhsText (Stands other keyTree))
    (binds : (InnerOp.strict op).level < other) :
    Gives (binaryText types node op lhs rhs lhsText rhsText)
      (Stands (InnerOp.strict op).level (binaryTree types op lhs rhs tree keyTree)) := by
  refine left.bind fun leftText leftStands => right.bind fun rightText rightStands => ?_
  unfold binaryTree
  split
  next =>
    have compared : Stands (InnerOp.strict op).level
        (.between (.strict op) (.call (.name "strcmp") [tree, keyTree]) (.number "0"))
        ("strcmp(" ++ leftText ++ ", " ++ rightText ++ ") " ++ op.spelling ++ " 0") := by
      have call : Stands 14 (.call (.name "strcmp") [tree, keyTree])
          ("strcmp(" ++ leftText ++ ", " ++ rightText ++ ")") :=
        stands_call_two (by decide) (by decide) leftStands enough rightStands (by omega)
      have small : (InnerOp.strict op).level < 15 :=
        Nat.lt_of_le_of_lt (InnerOp.level_mem _).2 (by decide)
      have written : "strcmp(" ++ leftText ++ ", " ++ rightText ++ ") " ++ op.spelling ++ " 0" =
          "strcmp(" ++ leftText ++ ", " ++ rightText ++ ")" ++ " " ++ op.spelling ++ " " ++
            "0" := by
        simp only [String.append_assoc]
        rfl
      rw [written]
      exact stands_between call (stands_number (isNumber_toString 0)) small
    cases op with
    | eq | ne => exact (gives_needs "string").bind fun _ _ => gives_pure compared
    | _ => exact gives_unsupported _ _
  next => exact gives_pure (stands_between leftStands rightStands binds)

theorem gives_printedText {e : Expr}
    (part : Gives (exprText types e) (Stands 1 (exprTree types e))) :
    Gives (printedText types e (exprText types e)) fun item =>
      item.1 = conversion types e ∧ Stands 1 (printedTree types e (exprTree types e)) item.2 := by
  refine part.bind fun text stands => ?_
  unfold conversion printedTree
  generalize typeOf types e = type
  cases type with
  | number | string => exact gives_pure ⟨rfl, stands⟩
  | boolean =>
    refine gives_pure ⟨rfl, ?_⟩
    have written : text ++ " ? \"true\" : \"false\"" =
        text ++ " ? " ++ "\"true\"" ++ " : " ++ "\"false\"" := by
      simp only [String.append_assoc]
      rfl
    have yes : Stands 15 (.literal "\"true\"") "\"true\"" := stands_literal (by decide)
    have no : Stands 15 (.literal "\"false\"") "\"false\"" := stands_literal (by decide)
    rw [if_pos rfl, written]
    exact (stands_conditional stands yes no).weaken (by decide)
  | _ => exact gives_unsupported _ _

section Arguments

variable {es : List Expr}
  (each : ∀ e ∈ es, Gives (exprText types e) (Stands 1 (exprTree types e)))

include each

theorem gives_items :
    Gives ((es.zip (es.map (exprText types))).mapM fun (arg, text) => printedText types arg text)
      fun items => items.map (·.1) = es.map (conversion types) ∧
        List.Forall₂ (Stands 1) (List.zipWith (printedTree types) es (es.map (exprTree types)))
          (items.map (·.2)) := by
  induction es with
  | nil => exact gives_pure ⟨rfl, .nil⟩
  | cons e rest ih =>
    rw [List.map_cons, List.zip_cons_cons, List.mapM_cons]
    refine (gives_printedText types (each e List.mem_cons_self)).bind fun item here => ?_
    refine Gives.bind (ih fun other member => each other (List.mem_cons_of_mem _ member)) ?_
    rintro items ⟨formats, stand⟩
    refine gives_pure ⟨?_, .cons here.2 stand⟩
    rw [List.map_cons, List.map_cons, here.1, formats]

theorem gives_printText :
    Gives (printText types es (es.map (exprText types)))
      (Stands 14 (printTree types es (es.map (exprTree types)))) := by
  refine (gives_needs "stdio").bind fun _ _ => (gives_items types each).bind ?_
  rintro items ⟨formats, stand⟩
  refine gives_pure ?_
  rw [formats]
  have format := (stands_literal (isLiteral_format types es)).weaken (by decide : 1 ≤ 15)
  have printf : isWord "printf" = true := by decide
  exact stands_call printf (.cons format stand)

theorem gives_methodText {node : Node} {object : Expr} {name : String}
    {objectText : ExprM String} (part : Gives objectText (Stands level tree)) (enough : 1 ≤ level) :
    Gives (methodText types node object name objectText (es.map (exprText types)))
      (Stands 14 (methodTree name tree (es.map (exprTree types)))) := by
  unfold methodText
  dsimp only
  split
  · refine part.bind fun target stands => ?_
    split
    next value eq =>
      obtain ⟨arg, rfl, rfl⟩ := List.map_eq_singleton_iff.1 eq
      refine (each arg List.mem_cons_self).bind fun value valueStands => gives_pure ?_
      exact stands_call_two (by decide) (by decide) stands enough valueStands le_rfl
    next eq =>
      rw [List.map_eq_nil_iff] at eq
      rw [eq]
      exact gives_pure (stands_call_one (by decide) (by decide) stands enough)
    · exact gives_unsupported _ _
  · exact gives_unsupported _ _

theorem gives_args :
    Gives ((es.map (exprText types)).mapM id)
      (List.Forall₂ (Stands 1) (es.map (exprTree types))) := by
  induction es with
  | nil => exact gives_pure .nil
  | cons e rest ih =>
    rw [List.map_cons, List.mapM_cons]
    refine (each e List.mem_cons_self).bind fun text here => ?_
    refine Gives.bind (ih fun other member => each other (List.mem_cons_of_mem _ member)) ?_
    intro texts there
    exact gives_pure (.cons here there)

theorem gives_callText {callee : Expr} (fits : callee.Fits) :
    Gives (callText callee (es.map (exprText types)))
      (Stands 14 (.call (.name (callee.ident?.getD "")) (es.map (exprTree types)))) := by
  unfold callText
  split
  next => exact gives_unsupported _ _
  next name named =>
    rw [named]
    refine (gives_args types each).bind fun texts stands => gives_pure ?_
    exact stands_call (callee.isWord_of_ident? fits named) stands

end Arguments

end Steps

/-! ## Expressions -/

theorem exprTrees_eq_map (types : Types) (es : List Expr) :
    exprTrees types es = es.map (exprTree types) := by
  induction es with
  | nil => simp [exprTrees]
  | cons e rest ih => simp [exprTrees, ih]

/-- No place ends in a number with an exponent. -/
theorem endsInExponent_placeTree (types : Types) :
    ∀ e : Expr, (placeTree types e).last.endsInExponent = false
  | .paren _ inner => by
      rw [placeTree]
      exact endsInExponent_placeTree types inner
  | .member _ object property => by
      rw [placeTree]
      unfold memberTree
      split
      · split
        · rfl
        · exact endsInExponent_toString _
      all_goals rfl
  | .index _ object key => by
      rw [placeTree]
      unfold indexTree
      split <;> rfl
  | .ident .. | .number .. | .string .. | .bool .. | .null _ | .array .. | .object .. | .call ..
  | .unary .. | .update .. | .binary .. | .logical .. | .assign .. | .conditional .. => by
      rw [placeTree]
      · rfl
      all_goals simp

theorem level_pos (e : Expr) : 1 ≤ e.level := by
  cases e with
  | binary | logical => exact le_trans (by decide) (InnerOp.level_mem _).1
  | update _ _ before => cases before <;> simp [Expr.level]
  | _ => simp [Expr.level]

/-- A condition binds at least as tightly as its expression, or as an operator before an operand. -/
theorem gives_condition (types : Types) {e : Expr}
    (part : Gives (exprText types e) (Stands e.level (exprTree types e))) {level : Nat}
    (binds : level ≤ e.level) (small : level ≤ 13) :
    Gives (conditionText types e (exprText types e))
      (Stands level (conditionTree types e (exprTree types e))) :=
  fun _ _ _ run => (gives_conditionText types e part run).weaken (Nat.le_min.2 ⟨binds, small⟩)

mutual

/-- The text of an expression is the text of its tree. -/
theorem gives_exprText (types : Types) :
    ∀ e : Expr, e.Fits → Gives (exprText types e) (Stands e.level (exprTree types e))
  | .number .., fits => by
      rw [Expr.Fits] at fits
      rw [exprText, exprTree]
      exact gives_pure (stands_number fits)
  | .string _ text, _ => by
      rw [exprText, exprTree]
      exact gives_pure (stands_literal (isLiteral_quoted text))
  | .bool _ value, _ => by
      rw [exprText, exprTree]
      cases value
      · exact gives_pure (stands_number (isNumber_toString 0))
      · exact gives_pure (stands_number (isNumber_toString 1))
  | .null _, _ => by
      rw [exprText, exprTree]
      exact (gives_needs _).bind fun _ _ => gives_pure (stands_name (by decide))
  | .ident _ name, fits => by
      rw [Expr.Fits] at fits
      rw [exprText, exprTree]
      exact gives_pure (stands_name fits)
  | .paren _ inner, fits => by
      rw [Expr.Fits] at fits
      rw [exprText, exprTree]
      exact (gives_exprText types inner fits).bind fun _ stands => gives_pure (stands_paren stands)
  | .array node _, _ => by
      rw [exprText]
      exact gives_unsupported _ _
  | .object node _, _ => by
      rw [exprText]
      exact gives_unsupported _ _
  | .member _ object property, fits => by
      rw [Expr.Fits] at fits
      rw [exprText, exprTree]
      exact gives_memberText types (gives_exprText types object fits.1) fits.2
  | .index _ object key, fits => by
      rw [Expr.Fits] at fits
      rw [exprText, exprTree]
      exact gives_indexText types (gives_exprText types object fits.1) fits.2.1
        (gives_exprText types key fits.2.2) (level_pos key)
  | .call node callee args, fits => by
      rw [Expr.Fits] at fits
      have each := gives_exprTexts types args fits.2
      cases callee with
      | member _ object property =>
          rw [exprText, exprTree, exprTexts_eq_map, exprTrees_eq_map]
          split
          · exact gives_printText types each
          · rw [Expr.Fits] at fits
            exact gives_methodText types each (gives_exprText types object fits.1.1)
              (level_pos object)
      | _ =>
          rw [exprText, exprTree, exprTexts_eq_map, exprTrees_eq_map]
          · exact gives_callText types each fits.1
          all_goals nofun
  | .unary _ op arg, fits => by
      rw [Expr.Fits] at fits
      have part := gives_exprText types arg fits.1
      cases op with
      | not =>
          rw [exprText, exprTree]
          refine (gives_condition types part fits.2 le_rfl).bind fun _ stands => ?_
          exact gives_pure (stands_before (.unary .not) stands le_rfl)
      | neg =>
          rw [exprText, exprTree]
          · exact part.bind fun _ stands => gives_pure (stands_before (.unary .neg) stands fits.2)
          · nofun
      | plus =>
          rw [exprText, exprTree]
          · exact part.bind fun _ stands => gives_pure (stands_before (.unary .plus) stands fits.2)
          · nofun
      | bitNot =>
          rw [exprText, exprTree]
          · exact part.bind fun _ stands =>
              gives_pure (stands_before (.unary .bitNot) stands fits.2)
          · nofun
  | .update _ op before target, fits => by
      rw [Expr.Fits] at fits
      rw [exprText, exprTree]
      refine (gives_placeText types target fits).bind fun _ stands => gives_pure ?_
      cases before with
      | true => exact stands_before (.update op) stands (by decide)
      | false => exact stands_after stands le_rfl (endsInExponent_placeTree types target)
  | .binary _ op lhs rhs, fits => by
      rw [Expr.Fits] at fits
      rw [exprText, exprTree]
      exact gives_binaryText types (gives_exprText types lhs fits.1) (level_pos lhs)
        (gives_exprText types rhs fits.2.1) fits.2.2
  | .logical _ op lhs rhs, fits => by
      rw [Expr.Fits] at fits
      rw [exprText, exprTree]
      have small : (InnerOp.lazy op).level + 1 ≤ 13 :=
        Nat.succ_le_succ (InnerOp.level_mem _).2
      refine (gives_condition types (gives_exprText types lhs fits.1) (level_pos lhs)
        (by decide)).bind fun _ left => ?_
      refine (gives_condition types (gives_exprText types rhs fits.2.1) fits.2.2
        small).bind fun _ right => ?_
      exact gives_pure (stands_between left right (Nat.lt_succ_self _))
  | .assign _ op target value, fits => by
      rw [Expr.Fits] at fits
      rw [exprText, exprTree]
      refine (gives_placeText types target fits.1).bind fun _ left => ?_
      refine (gives_exprText types value fits.2.1).bind fun _ right => ?_
      exact gives_pure (stands_assign left right (by decide) fits.2.2)
  | .conditional _ test yes no, fits => by
      rw [Expr.Fits] at fits
      rw [exprText, exprTree]
      refine (gives_condition types (gives_exprText types test fits.1) (level_pos test)
        (by decide)).bind fun _ first => ?_
      refine (gives_exprText types yes fits.2.1).bind fun _ second => ?_
      refine (gives_exprText types no fits.2.2).bind fun _ third => ?_
      exact gives_pure (stands_conditional first second third)

/-- The text of a place is the text of its tree. -/
theorem gives_placeText (types : Types) :
    ∀ e : Expr, e.Fits → Gives (placeText types e) (Stands 14 (placeTree types e))
  | .ident _ name, fits => by
      rw [Expr.Fits] at fits
      rw [placeText, placeTree]
      exact gives_pure ((stands_name fits).weaken (Nat.le_succ 14))
  | .paren _ inner, fits => by
      rw [Expr.Fits] at fits
      rw [placeText, placeTree]
      exact gives_placeText types inner fits
  | .member _ object property, fits => by
      rw [Expr.Fits] at fits
      rw [placeText, placeTree]
      exact gives_memberText types (gives_exprText types object fits.1) fits.2
  | .index _ object key, fits => by
      rw [Expr.Fits] at fits
      rw [placeText, placeTree]
      exact gives_indexText types (gives_exprText types object fits.1) fits.2.1
        (gives_exprText types key fits.2.2) (level_pos key)
  | .number .., _ | .string .., _ | .bool .., _ | .null _, _ | .array .., _ | .object .., _
  | .call .., _ | .unary .., _ | .update .., _ | .binary .., _ | .logical .., _ | .assign .., _
  | .conditional .., _ => by
      rw [placeText]
      · exact gives_unsupported _ _
      all_goals nofun

theorem gives_exprTexts (types : Types) :
    ∀ es : List Expr, Expr.AllFit es →
      ∀ e ∈ es, Gives (exprText types e) (Stands 1 (exprTree types e))
  | [], _ => nofun
  | e :: rest, fit => by
      rw [Expr.AllFit] at fit
      have first := gives_exprText types e fit.1
      intro part member
      rcases List.mem_cons.1 member with rfl | later
      · exact fun _ _ _ run => (first run).weaken (level_pos part)
      · exact gives_exprTexts types rest fit.2 part later

end

end Emit

end ScriptToC
