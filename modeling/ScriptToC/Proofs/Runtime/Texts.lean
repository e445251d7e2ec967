import ScriptToC.Proofs.Grouping.Emitted

/-!
# Every text is that of its tree

Whatever text is emitted for an expression, it is the text of the tree of the expression, also where
C would read another tree into it (`spells_exprText`). So is the text of a place that is assigned to
(`spells_placeText`).
-/

set_option autoImplicit false

namespace ScriptToC.Emit

open Ir

variable {types : Types} {tree keyTree : CExpr}

/-! ## The shapes of C text -/

theorem spells_conditionText (e : Expr) {text : ExprM String} (part : Gives text (Spells tree)) :
    Gives (conditionText types e text) (Spells (conditionTree types e tree)) := by
  refine part.bind fun text spells => ?_
  unfold conditionTree
  split
  · refine gives_pure ?_
    split
    · exact spells.before .deref
    · have written : "*(" ++ text ++ ")" = "*" ++ ("(" ++ text ++ ")") := by
        rw [← String.append_assoc, ← String.append_assoc]
        rfl
      rw [written]
      exact spells.paren.before .deref
  · exact gives_pure spells

theorem spells_memberText {node : Node} {object : Expr} {property : String}
    {objectText : ExprM String} (part : Gives objectText (Spells tree)) :
    Gives (memberText types node object property objectText)
      (Spells (memberTree types object property tree)) := by
  refine part.bind fun text spells => ?_
  unfold memberTree
  dsimp only
  generalize typeOf types object = type
  cases type with
  | array element capacity dynamic =>
    dsimp only
    split
    · refine gives_pure ?_
      cases dynamic with
      | true =>
        have written : text ++ "->size" = text ++ "->" ++ "size" := by
          rw [String.append_assoc]
          rfl
        rw [if_pos rfl, if_pos rfl, written]
        exact spells.arrow
      | false => exact rfl
    · exact gives_unsupported _ _
  | string =>
    dsimp only
    split
    · refine (gives_needs "string").bind fun _ _ => gives_pure ?_
      exact spells.call_one (by decide)
    · exact gives_unsupported _ _
  | struct => exact gives_pure spells.arrow
  | dict => exact gives_pure (spells.call_two rfl (by decide))
  | _ => exact gives_unsupported _ _

theorem spells_indexText {node : Node} {object key : Expr} {objectText keyText : ExprM String}
    (part : Gives objectText (Spells tree)) (keyPart : Gives keyText (Spells keyTree)) :
    Gives (indexText types node object key objectText keyText)
      (Spells (indexTree types object key tree keyTree)) := by
  refine part.bind fun text spells => keyPart.bind fun keyText keySpells => ?_
  unfold indexTree
  dsimp only
  generalize typeOf types object = type
  cases type with
  | array element capacity dynamic =>
    cases dynamic with
    | true =>
      have written : text ++ "->data[" ++ keyText ++ "]" =
          text ++ "->" ++ "data" ++ "[" ++ keyText ++ "]" := by
        simp only [String.append_assoc]
        rfl
      refine gives_pure ?_
      rw [written]
      exact spells.arrow.index keySpells
    | false => exact gives_pure (spells.index keySpells)
  | dict => exact gives_pure (spells.call_two keySpells (by decide))
  | struct =>
    cases key with
    | string _ field => exact gives_pure spells.arrow
    | _ => exact gives_unsupported _ _
  | _ => exact gives_unsupported _ _

theorem spells_binaryText {node : Node} {op : BinaryOp} {lhs rhs : Expr}
    {lhsText rhsText : ExprM String} (left : Gives lhsText (Spells tree))
    (right : Gives rhsText (Spells keyTree)) :
    Gives (binaryText types node op lhs rhs lhsText rhsText)
      (Spells (binaryTree types op lhs rhs tree keyTree)) := by
  refine left.bind fun leftText leftSpells => right.bind fun rightText rightSpells => ?_
  unfold binaryTree
  split
  · have compared : Spells
        (.between (.strict op) (.call (.name "strcmp") [tree, keyTree]) (.number "0"))
        ("strcmp(" ++ leftText ++ ", " ++ rightText ++ ") " ++ op.spelling ++ " 0") := by
      have call : Spells (.call (.name "strcmp") [tree, keyTree])
          ("strcmp(" ++ leftText ++ ", " ++ rightText ++ ")") :=
        leftSpells.call_two rightSpells (by decide)
      have written : "strcmp(" ++ leftText ++ ", " ++ rightText ++ ") " ++ op.spelling ++ " 0" =
          "strcmp(" ++ leftText ++ ", " ++ rightText ++ ")" ++ " " ++ op.spelling ++ " " ++
            "0" := by
        simp only [String.append_assoc]
        rfl
      have zero : Spells (.number "0") "0" := rfl
      rw [written]
      exact call.between zero
    cases op with
    | eq | ne => exact (gives_needs "string").bind fun _ _ => gives_pure compared
    | _ => exact gives_unsupported _ _
  · exact gives_pure (leftSpells.between rightSpells)

theorem spells_printedText {e : Expr} {text : ExprM String} (part : Gives text (Spells tree)) :
    Gives (printedText types e text) fun item =>
      item.1 = conversion types e ∧ Spells (printedTree types e tree) item.2 := by
  refine part.bind fun text spells => ?_
  unfold conversion printedTree
  generalize typeOf types e = type
  cases type with
  | number | string => exact gives_pure ⟨rfl, spells⟩
  | boolean =>
    refine gives_pure ⟨rfl, ?_⟩
    have written : text ++ " ? \"true\" : \"false\"" =
        text ++ " ? " ++ "\"true\"" ++ " : " ++ "\"false\"" := by
      simp only [String.append_assoc]
      rfl
    have yes : Spells (.literal "\"true\"") "\"true\"" := rfl
    have no : Spells (.literal "\"false\"") "\"false\"" := rfl
    rw [if_pos rfl, written]
    exact spells.conditional yes no
  | _ => exact gives_unsupported _ _

section Arguments

variable {es : List Expr} (each : ∀ e ∈ es, Gives (exprText types e) (Spells (exprTree types e)))

include each

theorem spells_items :
    Gives ((es.zip (es.map (exprText types))).mapM fun (arg, text) => printedText types arg text)
      fun items => items.map (·.1) = es.map (conversion types) ∧
        List.Forall₂ Spells (List.zipWith (printedTree types) es (es.map (exprTree types)))
          (items.map (·.2)) := by
  induction es with
  | nil => exact gives_pure ⟨rfl, .nil⟩
  | cons e rest ih =>
    rw [List.map_cons, List.zip_cons_cons, List.mapM_cons]
    refine (spells_printedText (each e List.mem_cons_self)).bind fun item here => ?_
    refine Gives.bind (ih fun other member => each other (List.mem_cons_of_mem _ member)) ?_
    rintro items ⟨formats, spell⟩
    refine gives_pure ⟨?_, .cons here.2 spell⟩
    rw [List.map_cons, List.map_cons, here.1, formats]

theorem spells_printText :
    Gives (printText types es (es.map (exprText types)))
      (Spells (printTree types es (es.map (exprTree types)))) := by
  refine (gives_needs "stdio").bind fun _ _ => (spells_items each).bind ?_
  rintro items ⟨formats, spell⟩
  refine gives_pure ?_
  rw [formats]
  exact spells_call "printf" (.cons rfl spell)

theorem spells_methodText {node : Node} {object : Expr} {name : String}
    {objectText : ExprM String} (part : Gives objectText (Spells tree)) :
    Gives (methodText types node object name objectText (es.map (exprText types)))
      (Spells (methodTree name tree (es.map (exprTree types)))) := by
  unfold methodText
  dsimp only
  split
  · refine part.bind fun target spells => ?_
    split
    next value eq =>
      obtain ⟨arg, rfl, rfl⟩ := List.map_eq_singleton_iff.1 eq
      refine (each arg List.mem_cons_self).bind fun value valueSpells => gives_pure ?_
      exact spells.call_two valueSpells (by decide)
    next eq =>
      rw [List.map_eq_nil_iff] at eq
      rw [eq]
      exact gives_pure (spells.call_one (by decide))
    · exact gives_unsupported _ _
  · exact gives_unsupported _ _

theorem spells_args :
    Gives ((es.map (exprText types)).mapM id) (List.Forall₂ Spells (es.map (exprTree types))) := by
  induction es with
  | nil => exact gives_pure .nil
  | cons e rest ih =>
    rw [List.map_cons, List.mapM_cons]
    refine (each e List.mem_cons_self).bind fun text here => ?_
    refine Gives.bind (ih fun other member => each other (List.mem_cons_of_mem _ member)) ?_
    intro texts there
    exact gives_pure (.cons here there)

theorem spells_callText (callee : Expr) :
    Gives (callText callee (es.map (exprText types)))
      (Spells (.call (.name (callee.ident?.getD "")) (es.map (exprTree types)))) := by
  unfold callText
  split
  next => exact gives_unsupported _ _
  next name named =>
    rw [named]
    exact (spells_args each).bind fun texts spell => gives_pure (spells_call name spell)

end Arguments

/-! ## Expressions -/

mutual

/-- The text of an expression is the text of its tree. -/
theorem spells_exprText : ∀ e : Expr, Gives (exprText types e) (Spells (exprTree types e))
  | .number .. | .string .. | .bool .. | .ident .. => by
      rw [exprText, exprTree]
      exact gives_pure rfl
  | .null _ => by
      rw [exprText, exprTree]
      exact (gives_needs _).bind fun _ _ => gives_pure rfl
  | .paren _ inner => by
      rw [exprText, exprTree]
      exact (spells_exprText inner).bind fun _ spells => gives_pure spells.paren
  | .array .. | .object .. => by
      rw [exprText]
      exact gives_unsupported _ _
  | .member _ object property => by
      rw [exprText, exprTree]
      exact spells_memberText (spells_exprText object)
  | .index _ object key => by
      rw [exprText, exprTree]
      exact spells_indexText (spells_exprText object) (spells_exprText key)
  | .call node callee args => by
      have each := spells_exprTexts args
      cases callee with
      | member _ object property =>
          rw [exprText, exprTree, exprTexts_eq_map, exprTrees_eq_map]
          split
          · exact spells_printText each
          · exact spells_methodText each (spells_exprText object)
      | _ =>
          rw [exprText, exprTree, exprTexts_eq_map, exprTrees_eq_map]
          · exact spells_callText each _
          all_goals nofun
  | .unary _ op arg => by
      have part := spells_exprText arg
      cases op with
      | not =>
          rw [exprText, exprTree]
          refine (spells_conditionText arg part).bind fun _ spells => ?_
          exact gives_pure (spells.before (.unary .not))
      | neg =>
          rw [exprText, exprTree]
          · exact part.bind fun _ spells => gives_pure (spells.before (.unary .neg))
          · nofun
      | plus =>
          rw [exprText, exprTree]
          · exact part.bind fun _ spells => gives_pure (spells.before (.unary .plus))
          · nofun
      | bitNot =>
          rw [exprText, exprTree]
          · exact part.bind fun _ spells => gives_pure (spells.before (.unary .bitNot))
          · nofun
  | .update _ op before target => by
      rw [exprText, exprTree]
      refine (spells_placeText target).bind fun _ spells => gives_pure ?_
      cases before with
      | true => exact spells.before (.update op)
      | false => exact spells.after
  | .binary _ op lhs rhs => by
      rw [exprText, exprTree]
      exact spells_binaryText (spells_exprText lhs) (spells_exprText rhs)
  | .logical _ op lhs rhs => by
      rw [exprText, exprTree]
      refine (spells_conditionText lhs (spells_exprText lhs)).bind fun _ left => ?_
      refine (spells_conditionText rhs (spells_exprText rhs)).bind fun _ right => ?_
      exact gives_pure (left.between right)
  | .assign _ op target value => by
      rw [exprText, exprTree]
      refine (spells_placeText target).bind fun _ left => ?_
      refine (spells_exprText value).bind fun _ right => ?_
      exact gives_pure (left.assign right)
  | .conditional _ test yes no => by
      rw [exprText, exprTree]
      refine (spells_conditionText test (spells_exprText test)).bind fun _ first => ?_
      refine (spells_exprText yes).bind fun _ second => ?_
      refine (spells_exprText no).bind fun _ third => ?_
      exact gives_pure (first.conditional second third)

/-- The text of a place is the text of its tree. -/
theorem spells_placeText : ∀ e : Expr, Gives (placeText types e) (Spells (placeTree types e))
  | .ident .. => by
      rw [placeText, placeTree]
      exact gives_pure rfl
  | .paren _ inner => by
      rw [placeText, placeTree]
      exact spells_placeText inner
  | .member _ object property => by
      rw [placeText, placeTree]
      exact spells_memberText (spells_exprText object)
  | .index _ object key => by
      rw [placeText, placeTree]
      exact spells_indexText (spells_exprText object) (spells_exprText key)
  | .number .. | .string .. | .bool .. | .null _ | .array .. | .object .. | .call .. | .unary ..
  | .update .. | .binary .. | .logical .. | .assign .. | .conditional .. => by
      rw [placeText]
      · exact gives_unsupported _ _
      all_goals nofun

theorem spells_exprTexts :
    ∀ es : List Expr, ∀ e ∈ es, Gives (exprText types e) (Spells (exprTree types e))
  | [] => nofun
  | e :: rest => by
      have first := spells_exprText e
      have others := spells_exprTexts rest
      exact List.forall_mem_cons.2 ⟨first, others⟩

end

/-- The text of a condition is the text of its tree. -/
theorem spells_condition (e : Expr) :
    Gives (condition types e) (Spells (conditionTree types e (exprTree types e))) :=
  spells_conditionText e (spells_exprText e)

end ScriptToC.Emit
