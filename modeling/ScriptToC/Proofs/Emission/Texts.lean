import ScriptToC.Proofs.Emission.Run

/-!
# Texts do not depend on headers

An expression may register headers, but its text, or the error it fails with, is the same whichever
headers are registered already (`blind_exprText`). The same holds of places, of conditions and of
the assignment of a value.
-/

set_option autoImplicit false

namespace ScriptToC

open Ir

namespace Emit

variable {α β : Type}

/-! ## Steps -/

/-- The result of a step on expressions is the same whichever headers are registered before it. -/
def Blind (m : ExprM α) : Prop :=
  ∀ headers headers' : Headers, (m headers).1 = (m headers').1

theorem blind_pure (a : α) : Blind (pure a : ExprM α) :=
  fun _ _ => rfl

theorem blind_needs (header : String) : Blind (needs header) :=
  fun _ _ => rfl

theorem blind_unsupported (span : Span) (cause : Unsupported) :
    Blind (unsupported span cause : ExprM α) :=
  fun _ _ => rfl

theorem Blind.bind {m : ExprM α} {next : α → ExprM β} (first : Blind m)
    (others : ∀ a, Blind (next a)) : Blind (m >>= next) := by
  intro headers headers'
  have same := first headers headers'
  rw [exprM_run_bind, exprM_run_bind]
  rcases eq : m headers with ⟨result, middle⟩
  rcases eq' : m headers' with ⟨result', middle'⟩
  rw [eq, eq'] at same
  obtain rfl : result = result' := same
  cases result with
  | error => rfl
  | ok a => exact others a middle middle'

theorem Blind.mapM {step : α → ExprM β} {list : List α} (each : ∀ a ∈ list, Blind (step a)) :
    Blind (list.mapM step) := by
  induction list with
  | nil => exact blind_pure []
  | cons a rest ih =>
    rw [List.mapM_cons]
    apply (each a List.mem_cons_self).bind
    intro b
    apply (ih fun other member => each other (List.mem_cons_of_mem _ member)).bind
    intro _
    exact blind_pure _

/-! ## The shapes of C text -/

section Shapes

variable (types : Types) (node : Node)

theorem blind_conditionText (e : Expr) {text : ExprM String} (part : Blind text) :
    Blind (conditionText types e text) := by
  apply part.bind
  intro text
  split <;> exact blind_pure _

theorem blind_memberText (object : Expr) (property : String) {objectText : ExprM String}
    (part : Blind objectText) : Blind (memberText types node object property objectText) := by
  apply part.bind
  intro target
  dsimp only
  split
  · split
    · exact blind_pure _
    · exact blind_unsupported _ _
  · split
    · exact (blind_needs _).bind fun _ => blind_pure _
    · exact blind_unsupported _ _
  · exact blind_pure _
  · exact blind_pure _
  · exact blind_unsupported _ _

theorem blind_indexText (object key : Expr) {objectText keyText : ExprM String}
    (part : Blind objectText) (other : Blind keyText) :
    Blind (indexText types node object key objectText keyText) := by
  apply part.bind
  intro target
  apply other.bind
  intro keyText
  dsimp only
  split
  · exact blind_pure _
  · exact blind_pure _
  · exact blind_pure _
  · split
    · exact blind_pure _
    · exact blind_unsupported _ _
  · exact blind_unsupported _ _

theorem blind_methodText (object : Expr) (name : String) {objectText : ExprM String}
    {texts : List (ExprM String)} (part : Blind objectText) (each : ∀ text ∈ texts, Blind text) :
    Blind (methodText types node object name objectText texts) := by
  unfold methodText
  dsimp only
  split
  · apply part.bind
    intro target
    split
    · apply (each _ (List.mem_singleton.2 rfl)).bind
      intro value
      exact blind_pure _
    · exact blind_pure _
    · exact blind_unsupported _ _
  · exact blind_unsupported _ _

theorem blind_binaryText (op : BinaryOp) (lhs rhs : Expr) {lhsText rhsText : ExprM String}
    (left : Blind lhsText) (right : Blind rhsText) :
    Blind (binaryText types node op lhs rhs lhsText rhsText) := by
  apply left.bind
  intro leftText
  apply right.bind
  intro rightText
  split
  · split
    · exact (blind_needs _).bind fun _ => blind_pure _
    · exact (blind_needs _).bind fun _ => blind_pure _
    · exact blind_unsupported _ _
  · exact blind_pure _

theorem blind_printText (args : List Expr) {texts : List (ExprM String)}
    (each : ∀ text ∈ texts, Blind text) : Blind (printText types args texts) := by
  apply (blind_needs _).bind
  intro _
  have items : ∀ part ∈ args.zip texts, Blind (printedText types part.1 part.2) := by
    rintro ⟨arg, text⟩ member
    apply (each text (List.of_mem_zip member).2).bind
    intro text
    split
    · exact blind_pure _
    · exact blind_pure _
    · exact blind_pure _
    · exact blind_unsupported _ _
  apply (Blind.mapM items).bind
  intro items
  exact blind_pure _

theorem blind_callText (callee : Expr) {texts : List (ExprM String)}
    (each : ∀ text ∈ texts, Blind text) : Blind (callText callee texts) := by
  unfold callText
  split
  · exact blind_unsupported _ _
  · apply (Blind.mapM each).bind
    intro args
    exact blind_pure _

end Shapes

/-! ## Expressions -/

mutual

/-- The text of an expression does not depend on the headers. -/
theorem blind_exprText (types : Types) : ∀ e : Expr, Blind (exprText types e)
  | .number .. => by rw [exprText]; exact blind_pure _
  | .string .. => by rw [exprText]; exact blind_pure _
  | .bool .. => by rw [exprText]; exact blind_pure _
  | .null _ => by
      rw [exprText]
      exact (blind_needs _).bind fun _ => blind_pure _
  | .ident .. => by rw [exprText]; exact blind_pure _
  | .paren _ inner => by
      rw [exprText]
      exact (blind_exprText types inner).bind fun _ => blind_pure _
  | .array .. => by rw [exprText]; exact blind_unsupported _ _
  | .object .. => by rw [exprText]; exact blind_unsupported _ _
  | .member node object property => by
      rw [exprText]
      exact blind_memberText types node object property (blind_exprText types object)
  | .index node object key => by
      rw [exprText]
      exact blind_indexText types node object key (blind_exprText types object)
        (blind_exprText types key)
  | .call node callee args => by
      have each := blind_exprTexts types args
      cases callee with
      | member _ object property =>
          rw [exprText]
          split
          · exact blind_printText types args each
          · exact blind_methodText types node _ _ (blind_exprText types object) each
      | _ =>
          rw [exprText]
          · exact blind_callText _ each
          · nofun
  | .unary _ op arg => by
      have part := blind_exprText types arg
      cases op with
      | not =>
          rw [exprText]
          exact (blind_conditionText types arg part).bind fun _ => blind_pure _
      | _ =>
          rw [exprText]
          exact part.bind fun _ => blind_pure _
  | .update _ _ _ target => by
      rw [exprText]
      exact (blind_placeText types target).bind fun _ => blind_pure _
  | .binary node op lhs rhs => by
      rw [exprText]
      exact blind_binaryText types node op lhs rhs (blind_exprText types lhs)
        (blind_exprText types rhs)
  | .logical _ _ lhs rhs => by
      rw [exprText]
      apply (blind_conditionText types lhs (blind_exprText types lhs)).bind
      intro left
      apply (blind_conditionText types rhs (blind_exprText types rhs)).bind
      intro right
      exact blind_pure _
  | .assign _ _ target value => by
      rw [exprText]
      apply (blind_placeText types target).bind
      intro target
      apply (blind_exprText types value).bind
      intro value
      exact blind_pure _
  | .conditional _ test yes no => by
      rw [exprText]
      apply (blind_conditionText types test (blind_exprText types test)).bind
      intro test
      apply (blind_exprText types yes).bind
      intro yes
      apply (blind_exprText types no).bind
      intro no
      exact blind_pure _

/-- The text of a place does not depend on the headers. -/
theorem blind_placeText (types : Types) : ∀ e : Expr, Blind (placeText types e)
  | .ident .. => by rw [placeText]; exact blind_pure _
  | .paren _ inner => by
      rw [placeText]
      exact blind_placeText types inner
  | .member node object property => by
      rw [placeText]
      exact blind_memberText types node object property (blind_exprText types object)
  | .index node object key => by
      rw [placeText]
      exact blind_indexText types node object key (blind_exprText types object)
        (blind_exprText types key)
  | .number .. | .string .. | .bool .. | .null _ | .array .. | .object .. | .call .. | .unary ..
  | .update .. | .binary .. | .logical .. | .assign .. | .conditional .. => by
      rw [placeText]
      · exact blind_unsupported _ _
      all_goals nofun

theorem blind_exprTexts (types : Types) :
    ∀ es : List Expr, ∀ text ∈ exprTexts types es, Blind text
  | [] => by
      intro text member
      rw [exprTexts] at member
      cases member
  | e :: rest => by
      intro text member
      rw [exprTexts] at member
      rcases List.mem_cons.1 member with rfl | later
      · exact blind_exprText types e
      · exact blind_exprTexts types rest text later

end

/-- The text of a condition does not depend on the headers. -/
theorem blind_condition (types : Types) (e : Expr) : Blind (condition types e) :=
  blind_conditionText types e (blind_exprText types e)

/-- An assignment does not depend on the headers. -/
theorem blind_assignment (types : Types) (target : String) (type : Option CType) (value : Expr) :
    Blind (assignment types target type value) := by
  unfold assignment
  split
  · split
    · exact blind_unsupported _ _
    · refine Blind.bind ?_ fun _ => blind_pure _
      refine Blind.bind (Blind.mapM ?_) fun _ => blind_pure _
      rintro ⟨e, index⟩ _
      exact (blind_exprText types e).bind fun _ => blind_pure _
  · refine Blind.bind ?_ fun _ => blind_pure _
    refine Blind.bind (Blind.mapM ?_) fun _ => blind_pure _
    rintro ⟨key, e⟩ _
    exact (blind_exprText types e).bind fun _ => blind_pure _
  · exact blind_unsupported _ _
  · exact blind_unsupported _ _
  · exact blind_unsupported _ _
  · exact blind_unsupported _ _
  · exact (blind_exprText types value).bind fun _ => blind_pure _

end Emit

end ScriptToC
