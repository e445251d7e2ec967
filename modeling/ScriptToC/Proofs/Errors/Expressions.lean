import ScriptToC.Proofs.Emission.Run
import ScriptToC.Proofs.Errors.Places

/-!
# Where expressions fail

An expression that has no C form fails at one of its own nodes, whatever the types are, and never
for want of a type (`exprLocated_exprText`). The same holds of places, of conditions and of the
assignment of a value.
-/

set_option autoImplicit false

namespace ScriptToC

open Ir

namespace Emit

variable {α β : Type} {spans : List Span}

/-! ## Steps -/

/-- Every error of a step on expressions is a construct without a C form, at one of these places. -/
def ExprLocated (spans : List Span) (m : ExprM α) : Prop :=
  ∀ (headers : Headers) (cause : EmitError), (m headers).1 = .error cause →
    ∃ span ∈ spans, ∃ why, cause = .unsupported span why

theorem exprLocated_pure (a : α) : ExprLocated spans (pure a : ExprM α) := by
  intro headers cause failed
  cases failed

theorem exprLocated_needs (header : String) : ExprLocated spans (needs header) := by
  intro headers cause failed
  cases failed

theorem exprLocated_unsupported {span : Span} (here : span ∈ spans) (cause : Unsupported) :
    ExprLocated spans (unsupported span cause : ExprM α) := by
  intro headers _ failed
  cases failed
  exact ⟨_, here, cause, rfl⟩

theorem ExprLocated.bind {m : ExprM α} {next : α → ExprM β} (first : ExprLocated spans m)
    (others : ∀ a, ExprLocated spans (next a)) : ExprLocated spans (m >>= next) := by
  intro headers cause failed
  rw [exprM_run_bind] at failed
  split at failed
  next a middle eq => exact others a middle cause failed
  next _ middle eq =>
    cases failed
    exact first headers cause (congrArg Prod.fst eq)

theorem ExprLocated.mapM {step : α → ExprM β} {list : List α}
    (each : ∀ a ∈ list, ExprLocated spans (step a)) : ExprLocated spans (list.mapM step) := by
  induction list with
  | nil => exact exprLocated_pure []
  | cons a rest ih =>
    rw [List.mapM_cons]
    apply (each a List.mem_cons_self).bind
    intro b
    apply (ih fun other member => each other (List.mem_cons_of_mem _ member)).bind
    intro _
    exact exprLocated_pure _

/-! ## The shapes of C text -/

section Shapes

variable (types : Types) {node : Node} (here : node.span ∈ spans)

theorem exprLocated_conditionText (e : Expr) {text : ExprM String}
    (part : ExprLocated spans text) : ExprLocated spans (conditionText types e text) := by
  apply part.bind
  intro text
  split <;> exact exprLocated_pure _

include here

theorem exprLocated_memberText (object : Expr) (property : String) {objectText : ExprM String}
    (part : ExprLocated spans objectText) :
    ExprLocated spans (memberText types node object property objectText) := by
  apply part.bind
  intro target
  dsimp only
  split
  · split
    · exact exprLocated_pure _
    · exact exprLocated_unsupported here _
  · split
    · exact (exprLocated_needs _).bind fun _ => exprLocated_pure _
    · exact exprLocated_unsupported here _
  · exact exprLocated_pure _
  · exact exprLocated_pure _
  · exact exprLocated_unsupported here _

theorem exprLocated_indexText (object key : Expr) {objectText keyText : ExprM String}
    (part : ExprLocated spans objectText) (other : ExprLocated spans keyText) :
    ExprLocated spans (indexText types node object key objectText keyText) := by
  apply part.bind
  intro target
  apply other.bind
  intro keyText
  dsimp only
  split
  · exact exprLocated_pure _
  · exact exprLocated_pure _
  · exact exprLocated_pure _
  · split
    · exact exprLocated_pure _
    · exact exprLocated_unsupported here _
  · exact exprLocated_unsupported here _

theorem exprLocated_methodText (object : Expr) (name : String) {objectText : ExprM String}
    {texts : List (ExprM String)} (part : ExprLocated spans objectText)
    (each : ∀ text ∈ texts, ExprLocated spans text) :
    ExprLocated spans (methodText types node object name objectText texts) := by
  unfold methodText
  dsimp only
  split
  · apply part.bind
    intro target
    split
    · apply (each _ (List.mem_singleton.2 rfl)).bind
      intro value
      exact exprLocated_pure _
    · exact exprLocated_pure _
    · exact exprLocated_unsupported here _
  · exact exprLocated_unsupported here _

theorem exprLocated_binaryText (op : BinaryOp) (lhs rhs : Expr) {lhsText rhsText : ExprM String}
    (left : ExprLocated spans lhsText) (right : ExprLocated spans rhsText) :
    ExprLocated spans (binaryText types node op lhs rhs lhsText rhsText) := by
  apply left.bind
  intro leftText
  apply right.bind
  intro rightText
  split
  · split
    · exact (exprLocated_needs _).bind fun _ => exprLocated_pure _
    · exact (exprLocated_needs _).bind fun _ => exprLocated_pure _
    · exact exprLocated_unsupported here _
  · exact exprLocated_pure _

omit here

theorem exprLocated_printText {args : List Expr} {texts : List (ExprM String)}
    (inside : ∀ arg ∈ args, arg.span ∈ spans) (each : ∀ text ∈ texts, ExprLocated spans text) :
    ExprLocated spans (printText types args texts) := by
  apply (exprLocated_needs _).bind
  intro _
  have items : ∀ part ∈ args.zip texts, ExprLocated spans (printedText types part.1 part.2) := by
    rintro ⟨arg, text⟩ member
    obtain ⟨isArg, isText⟩ := List.of_mem_zip member
    apply (each text isText).bind
    intro text
    split
    · exact exprLocated_pure _
    · exact exprLocated_pure _
    · exact exprLocated_pure _
    · exact exprLocated_unsupported (inside arg isArg) _
  apply (ExprLocated.mapM items).bind
  intro items
  exact exprLocated_pure _

theorem exprLocated_callText {callee : Expr} (inside : callee.span ∈ spans)
    {texts : List (ExprM String)} (each : ∀ text ∈ texts, ExprLocated spans text) :
    ExprLocated spans (callText callee texts) := by
  unfold callText
  split
  · exact exprLocated_unsupported inside _
  · apply (ExprLocated.mapM each).bind
    intro args
    exact exprLocated_pure _

end Shapes

/-! ## Expressions -/

mutual

/-- Emitting an expression fails at one of its nodes. -/
theorem exprLocated_exprText (types : Types) :
    ∀ e : Expr, e.spans ⊆ spans → ExprLocated spans (exprText types e)
  | .number .., _ => by rw [exprText]; exact exprLocated_pure _
  | .string .., _ => by rw [exprText]; exact exprLocated_pure _
  | .bool .., _ => by rw [exprText]; exact exprLocated_pure _
  | .null _, _ => by
      rw [exprText]
      exact (exprLocated_needs _).bind fun _ => exprLocated_pure _
  | .ident .., _ => by rw [exprText]; exact exprLocated_pure _
  | .paren _ inner, sub => by
      rw [exprText]
      rw [Expr.spans, List.cons_subset] at sub
      exact (exprLocated_exprText types inner sub.2).bind fun _ => exprLocated_pure _
  | .array .., sub => by
      rw [exprText]
      rw [Expr.spans, List.cons_subset] at sub
      exact exprLocated_unsupported sub.1 _
  | .object .., sub => by
      rw [exprText]
      rw [Expr.spans, List.cons_subset] at sub
      exact exprLocated_unsupported sub.1 _
  | .member _ object property, sub => by
      rw [exprText]
      rw [Expr.spans, List.cons_subset] at sub
      exact exprLocated_memberText types sub.1 object property
        (exprLocated_exprText types object sub.2)
  | .index _ object key, sub => by
      rw [exprText]
      rw [Expr.spans, List.cons_subset, List.append_subset] at sub
      exact exprLocated_indexText types sub.1 object key
        (exprLocated_exprText types object sub.2.1) (exprLocated_exprText types key sub.2.2)
  | .call node callee args, sub => by
      rw [Expr.spans, List.cons_subset, List.append_subset] at sub
      obtain ⟨here, inCallee, inArgs⟩ := sub
      have each := exprLocated_exprTexts types args inArgs
      cases callee with
      | member _ object property =>
          rw [exprText]
          rw [Expr.spans, List.cons_subset] at inCallee
          split
          · apply exprLocated_printText types _ each
            intro arg member
            exact inArgs (spans_subset_of_mem member arg.span_mem_spans)
          · exact exprLocated_methodText types here _ _
              (exprLocated_exprText types object inCallee.2) each
      | _ =>
          rw [exprText]
          · exact exprLocated_callText (inCallee (Expr.span_mem_spans _)) each
          · nofun
  | .unary _ op arg, sub => by
      rw [Expr.spans, List.cons_subset] at sub
      have part := exprLocated_exprText types arg sub.2
      cases op with
      | not =>
          rw [exprText]
          exact (exprLocated_conditionText types arg part).bind fun _ => exprLocated_pure _
      | _ =>
          rw [exprText]
          exact part.bind fun _ => exprLocated_pure _
  | .update _ _ _ target, sub => by
      rw [exprText]
      rw [Expr.spans, List.cons_subset] at sub
      exact (exprLocated_placeText types target sub.2).bind fun _ => exprLocated_pure _
  | .binary _ op lhs rhs, sub => by
      rw [exprText]
      rw [Expr.spans, List.cons_subset, List.append_subset] at sub
      exact exprLocated_binaryText types sub.1 op lhs rhs
        (exprLocated_exprText types lhs sub.2.1) (exprLocated_exprText types rhs sub.2.2)
  | .logical _ _ lhs rhs, sub => by
      rw [exprText]
      rw [Expr.spans, List.cons_subset, List.append_subset] at sub
      apply (exprLocated_conditionText types lhs (exprLocated_exprText types lhs sub.2.1)).bind
      intro left
      apply (exprLocated_conditionText types rhs (exprLocated_exprText types rhs sub.2.2)).bind
      intro right
      exact exprLocated_pure _
  | .assign _ _ target value, sub => by
      rw [exprText]
      rw [Expr.spans, List.cons_subset, List.append_subset] at sub
      apply (exprLocated_placeText types target sub.2.1).bind
      intro target
      apply (exprLocated_exprText types value sub.2.2).bind
      intro value
      exact exprLocated_pure _
  | .conditional _ test yes no, sub => by
      rw [exprText]
      rw [Expr.spans, List.cons_subset, List.append_subset, List.append_subset] at sub
      obtain ⟨-, inTest, inYes, inNo⟩ := sub
      apply (exprLocated_conditionText types test (exprLocated_exprText types test inTest)).bind
      intro test
      apply (exprLocated_exprText types yes inYes).bind
      intro yes
      apply (exprLocated_exprText types no inNo).bind
      intro no
      exact exprLocated_pure _

/-- Emitting a place fails at one of its nodes. -/
theorem exprLocated_placeText (types : Types) :
    ∀ e : Expr, e.spans ⊆ spans → ExprLocated spans (placeText types e)
  | .ident .., _ => by rw [placeText]; exact exprLocated_pure _
  | .paren _ inner, sub => by
      rw [placeText]
      rw [Expr.spans, List.cons_subset] at sub
      exact exprLocated_placeText types inner sub.2
  | .member _ object property, sub => by
      rw [placeText]
      rw [Expr.spans, List.cons_subset] at sub
      exact exprLocated_memberText types sub.1 object property
        (exprLocated_exprText types object sub.2)
  | .index _ object key, sub => by
      rw [placeText]
      rw [Expr.spans, List.cons_subset, List.append_subset] at sub
      exact exprLocated_indexText types sub.1 object key
        (exprLocated_exprText types object sub.2.1) (exprLocated_exprText types key sub.2.2)
  | .number .., sub | .string .., sub | .bool .., sub | .null _, sub | .array .., sub
  | .object .., sub | .call .., sub | .unary .., sub | .update .., sub | .binary .., sub
  | .logical .., sub | .assign .., sub | .conditional .., sub => by
      rw [placeText]
      · exact exprLocated_unsupported (sub (Expr.span_mem_spans _)) _
      all_goals nofun

theorem exprLocated_exprTexts (types : Types) :
    ∀ es : List Expr, listSpans es ⊆ spans → ∀ text ∈ exprTexts types es, ExprLocated spans text
  | [], _ => by
      intro text member
      rw [exprTexts] at member
      cases member
  | e :: rest, sub => by
      rw [listSpans, List.append_subset] at sub
      intro text member
      rw [exprTexts] at member
      rcases List.mem_cons.1 member with rfl | later
      · exact exprLocated_exprText types e sub.1
      · exact exprLocated_exprTexts types rest sub.2 text later

end

/-- The text of a condition fails at one of its nodes. -/
theorem exprLocated_condition (types : Types) {e : Expr} (sub : e.spans ⊆ spans) :
    ExprLocated spans (condition types e) :=
  exprLocated_conditionText types e (exprLocated_exprText types e sub)

/-- An assignment fails at one of the nodes of its value. -/
theorem exprLocated_assignment (types : Types) (target : String) (type : Option CType)
    {value : Expr} (sub : value.spans ⊆ spans) :
    ExprLocated spans (assignment types target type value) := by
  unfold assignment
  split
  next node elements element capacity dynamic =>
    rw [Expr.spans, List.cons_subset] at sub
    split
    · exact exprLocated_unsupported sub.1 _
    · refine ExprLocated.bind ?_ fun _ => exprLocated_pure _
      refine ExprLocated.bind (ExprLocated.mapM ?_) fun _ => exprLocated_pure _
      rintro ⟨e, index⟩ member
      have inside := spans_subset_of_mem (List.fst_mem_of_mem_zipIdx member)
      exact (exprLocated_exprText types e fun _ at' => sub.2 (inside at')).bind fun _ =>
        exprLocated_pure _
  next node properties element =>
    rw [Expr.spans, List.cons_subset] at sub
    refine ExprLocated.bind ?_ fun _ => exprLocated_pure _
    refine ExprLocated.bind (ExprLocated.mapM ?_) fun _ => exprLocated_pure _
    rintro ⟨key, e⟩ member
    have inside := spans_subset_of_mem_properties member
    exact (exprLocated_exprText types e fun _ at' => sub.2 (inside at')).bind fun _ =>
      exprLocated_pure _
  · exact exprLocated_unsupported (sub (Expr.span_mem_spans _)) _
  · exact exprLocated_unsupported (sub (Expr.span_mem_spans _)) _
  · exact exprLocated_unsupported (sub (Expr.span_mem_spans _)) _
  · exact exprLocated_unsupported (sub (Expr.span_mem_spans _)) _
  · exact (exprLocated_exprText types value sub).bind fun _ => exprLocated_pure _

end Emit

end ScriptToC
