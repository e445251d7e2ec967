import ScriptToC.Proofs.Emission.Texts
import ScriptToC.Proofs.Runtime.Comparisons

/-!
# Which operands the operators take

An operator between two values takes strings only if it compares them for equality. A compound
assignment, an update and an operator before its operand apply an operator too, but no type is
looked at there: each of them has a text as soon as its operands have one. So the written-out form,
with the operator between two values, is accepted exactly if the short form is and the operator
takes its operands (`compound_accepted_iff_takes`). What is added to a string in place becomes
arithmetic on a pointer (`string_added_in_place`).
-/

set_option autoImplicit false

namespace ScriptToC

open Ir

/-! ## The written-out forms -/

namespace Ir

/-- The operator that an update applies, to the target and one. -/
def UpdateOp.inner : UpdateOp → BinaryOp
  | .increment => .add
  | .decrement => .sub

/-- The arithmetic that an operator before its operand stands for: an operator between a number and
the operand. -/
def UnaryOp.inner? : UnaryOp → Option (String × BinaryOp)
  | .neg => some ("0", .sub)
  | .plus => some ("0", .add)
  | .bitNot => some ("-1", .bitXor)
  | .not => none

end Ir

namespace Emit

variable {types : Types}

/-! ## Steps that answer -/

section Steps

variable {α β : Type} {m : ExprM α} {next : α → ExprM β} {a : α} {b : β}

/-- A step has this result, whichever headers are registered. -/
def Answers (m : ExprM α) (a : α) : Prop :=
  ∀ headers : Headers, (m headers).1 = .ok a

theorem answers_pure {a' : α} : Answers (pure a') a ↔ a = a' := by
  constructor
  · intro answers
    cases answers {}
    rfl
  · rintro rfl headers
    rfl

theorem not_answers_unsupported (span : Span) (cause : Unsupported) :
    ¬ Answers (unsupported span cause : ExprM α) a := by
  intro answers
  cases answers {}

/-- A row of steps answers if each of its steps does. -/
theorem answers_bind (first : Blind m) (others : ∀ a, Blind (next a)) :
    Answers (m >>= next) b ↔ ∃ a, Answers m a ∧ Answers (next a) b := by
  constructor
  · intro answers
    have run := answers {}
    rw [exprM_run_bind] at run
    rcases eq : m {} with ⟨cause | a, middle⟩
    · rw [eq] at run
      cases run
    · rw [eq] at run
      refine ⟨a, fun headers => ?_, fun headers => (others a headers middle).trans run⟩
      rw [first headers {}, eq]
  · rintro ⟨a, before, after⟩ headers
    have run := before headers
    rw [exprM_run_bind]
    rcases eq : m headers with ⟨result, middle⟩
    rw [eq] at run
    obtain rfl : result = .ok a := run
    exact after middle

end Steps

/-! ## Accepted expressions -/

/-- An expression is accepted: it has a C text. -/
def Accepted (types : Types) (e : Expr) : Prop :=
  ∃ text, Answers (exprText types e) text

/-- A place is accepted. -/
def PlaceAccepted (types : Types) (e : Expr) : Prop :=
  ∃ text, Answers (placeText types e) text

/-- An operator takes two operands: neither is a string, or it compares them for equality. -/
def Takes (types : Types) (op : BinaryOp) (lhs rhs : Expr) : Prop :=
  typeOf types lhs = .string ∨ typeOf types rhs = .string → op = .eq ∨ op = .ne

section Forms

variable {node : Node} {inner target value lhs rhs arg : Expr} {text : String}

theorem answers_paren :
    Answers (exprText types (.paren node inner)) text ↔
      ∃ part, Answers (exprText types inner) part ∧ text = "(" ++ part ++ ")" := by
  rw [exprText, answers_bind (blind_exprText types inner) fun _ => blind_pure _]
  simp only [answers_pure]

/-- A place can be read. -/
theorem PlaceAccepted.accepted {target : Expr} (isPlace : PlaceAccepted types target) :
    Accepted types target := by
  obtain ⟨place, isPlace⟩ := isPlace
  cases target with
  | ident _ name => exact ⟨name, by rw [exprText, answers_pure]⟩
  | paren _ inner =>
    rw [placeText] at isPlace
    have inside : PlaceAccepted types inner := ⟨place, isPlace⟩
    obtain ⟨text, isText⟩ := inside.accepted
    exact ⟨_, answers_paren.2 ⟨text, isText, rfl⟩⟩
  | member | index =>
    rw [placeText, ← exprText] at isPlace
    exact ⟨place, isPlace⟩
  | _ => exact absurd isPlace (not_answers_unsupported _ _)

theorem answers_assign {op : Option BinaryOp} :
    Answers (exprText types (.assign node op target value)) text ↔
      ∃ place stored, Answers (placeText types target) place ∧
        Answers (exprText types value) stored ∧
        text = place ++ " " ++ op.elim "" BinaryOp.spelling ++ "= " ++ stored := by
  rw [exprText, answers_bind (blind_placeText types target)]
  · apply exists_congr
    intro place
    rw [answers_bind (blind_exprText types value) fun _ => blind_pure _]
    simp only [answers_pure]
    exact exists_and_left.symm
  · exact fun _ => (blind_exprText types value).bind fun _ => blind_pure _

/-- An assignment is accepted if both of its sides are. -/
theorem accepted_assign {op : Option BinaryOp} :
    Accepted types (.assign node op target value) ↔
      PlaceAccepted types target ∧ Accepted types value := by
  simp only [Accepted, answers_assign]
  constructor
  · rintro ⟨_, place, stored, isPlace, isStored, -⟩
    exact ⟨⟨place, isPlace⟩, stored, isStored⟩
  · rintro ⟨⟨place, isPlace⟩, stored, isStored⟩
    exact ⟨_, place, stored, isPlace, isStored, rfl⟩

theorem answers_update {op : UpdateOp} {before : Bool} :
    Answers (exprText types (.update node op before target)) text ↔
      ∃ place, Answers (placeText types target) place ∧
        text = if before then op.spelling ++ place else place ++ op.spelling := by
  rw [exprText, answers_bind (blind_placeText types target) fun _ => blind_pure _]
  simp only [answers_pure]

/-- An update is accepted if its target is. -/
theorem accepted_update {op : UpdateOp} {before : Bool} :
    Accepted types (.update node op before target) ↔ PlaceAccepted types target := by
  simp only [Accepted, answers_update]
  constructor
  · rintro ⟨_, place, isPlace, -⟩
    exact ⟨place, isPlace⟩
  · rintro ⟨place, isPlace⟩
    exact ⟨_, place, isPlace, rfl⟩

/-- An operator before its operand that stands for arithmetic is accepted if the operand is. -/
theorem accepted_unary {op : UnaryOp} (arithmetic : op ≠ .not) :
    Accepted types (.unary node op arg) ↔ Accepted types arg := by
  have spelled : ∃ sign : String, ∀ text, Answers (exprText types (.unary node op arg)) text ↔
      ∃ part, Answers (exprText types arg) part ∧ text = sign ++ part := by
    cases op with
    | not => exact absurd rfl arithmetic
    | neg =>
      refine ⟨"-", fun text => ?_⟩
      rw [exprText, answers_bind (blind_exprText types arg) fun _ => blind_pure _]
      simp only [answers_pure]
    | plus =>
      refine ⟨"+", fun text => ?_⟩
      rw [exprText, answers_bind (blind_exprText types arg) fun _ => blind_pure _]
      simp only [answers_pure]
    | bitNot =>
      refine ⟨"~", fun text => ?_⟩
      rw [exprText, answers_bind (blind_exprText types arg) fun _ => blind_pure _]
      simp only [answers_pure]
  obtain ⟨sign, answers⟩ := spelled
  simp only [Accepted, answers]
  constructor
  · rintro ⟨_, part, isPart, -⟩
    exact ⟨part, isPart⟩
  · rintro ⟨part, isPart⟩
    exact ⟨_, part, isPart, rfl⟩

/-- With the texts of both operands, an operator has a text if it takes the operands. -/
theorem answers_binaryText_iff {op : BinaryOp} (left right : String) :
    (∃ text, Answers (binaryText types node op lhs rhs (pure left) (pure right)) text) ↔
      Takes types op lhs rhs := by
  unfold binaryText Takes
  simp only [pure_bind]
  by_cases isString : typeOf types lhs = .string ∨ typeOf types rhs = .string
  · have flag : ((typeOf types lhs).isString || (typeOf types rhs).isString) = true := by
      rwa [Bool.or_eq_true, CType.isString_iff, CType.isString_iff]
    have compared : ∀ text : String, Answers (needs "string" >>= fun _ => pure text) text :=
      fun text => (answers_bind (blind_needs _) fun _ => blind_pure _).2
        ⟨(), fun _ => rfl, answers_pure.2 rfl⟩
    rw [if_pos flag]
    constructor
    · rintro ⟨text, answers⟩ -
      split at answers
      · exact .inl rfl
      · exact .inr rfl
      · exact absurd answers (not_answers_unsupported _ _)
    · intro takes
      rcases takes isString with rfl | rfl
      · exact ⟨_, compared _⟩
      · exact ⟨_, compared _⟩
  · have flag : ¬ ((typeOf types lhs).isString || (typeOf types rhs).isString) = true := by
      rwa [Bool.or_eq_true, CType.isString_iff, CType.isString_iff]
    rw [if_neg flag]
    exact ⟨fun _ given => absurd given isString, fun _ => ⟨_, answers_pure.2 rfl⟩⟩

/-- An operator between two values is accepted if both of them are and it takes them. -/
theorem accepted_binary {op : BinaryOp} :
    Accepted types (.binary node op lhs rhs) ↔
      (Accepted types lhs ∧ Accepted types rhs) ∧ Takes types op lhs rhs := by
  have inTurn : exprText types (.binary node op lhs rhs) = exprText types lhs >>= fun left =>
      exprText types rhs >>= fun right =>
        binaryText types node op lhs rhs (pure left) (pure right) := by
    rw [exprText]
    simp only [binaryText, pure_bind]
  have last : ∀ left right : String,
      Blind (binaryText types node op lhs rhs (pure left) (pure right)) := by
    intro left right
    exact blind_binaryText _ _ _ _ _ (blind_pure left) (blind_pure right)
  have answers : ∀ text, Answers (exprText types (.binary node op lhs rhs)) text ↔
      ∃ left, Answers (exprText types lhs) left ∧ ∃ right, Answers (exprText types rhs) right ∧
        Answers (binaryText types node op lhs rhs (pure left) (pure right)) text := by
    intro text
    rw [inTurn, answers_bind (blind_exprText types lhs)]
    · apply exists_congr
      intro left
      rw [answers_bind (blind_exprText types rhs) (last left)]
    · exact fun left => (blind_exprText types rhs).bind (last left)
  simp only [Accepted, answers]
  constructor
  · rintro ⟨text, left, isLeft, right, isRight, isText⟩
    exact ⟨⟨⟨left, isLeft⟩, right, isRight⟩, (answers_binaryText_iff left right).1 ⟨text, isText⟩⟩
  · rintro ⟨⟨⟨left, isLeft⟩, right, isRight⟩, takes⟩
    obtain ⟨text, isText⟩ := (answers_binaryText_iff left right).2 takes
    exact ⟨text, left, isLeft, right, isRight, isText⟩

/-- A number is accepted. -/
theorem accepted_number (text : String) : Accepted types (.number node text) :=
  ⟨text, by rw [exprText, answers_pure]⟩

/-- What is assigned back to a place that it was computed from is accepted if the place is and the
operator takes its operands. -/
theorem accepted_assignBack {inside : Node} {op : BinaryOp} :
    Accepted types (.assign node none target (.binary inside op target value)) ↔
      (PlaceAccepted types target ∧ Accepted types value) ∧ Takes types op target value := by
  rw [accepted_assign, accepted_binary]
  constructor
  · rintro ⟨isPlace, ⟨-, isValue⟩, takes⟩
    exact ⟨⟨isPlace, isValue⟩, takes⟩
  · rintro ⟨⟨isPlace, isValue⟩, takes⟩
    exact ⟨isPlace, ⟨isPlace.accepted, isValue⟩, takes⟩

end Forms

/-! ## Statements -/

section Statements

variable {σ : Setting} {w : Workspace} {target value : Expr}

/-- A step on an expression succeeds in a program if it answers. -/
theorem expr_ok_iff {α : Type} (action : Types → ExprM α) (blind : Blind (action σ.types)) {a : α} :
    (∃ w', expr action σ w = (.ok a, w')) ↔ Answers (action σ.types) a := by
  constructor
  · rintro ⟨w', run⟩ headers
    rw [blind headers w.headers]
    exact (Prod.mk.inj run).1
  · intro answers
    exact ⟨_, Prod.ext (answers w.headers) rfl⟩

/-- What is no literal is assigned as an expression. -/
theorem assignment_of_plain (plain : value.isLiteral = false) (place : String)
    (type : Option CType) :
    assignment σ.types place type value =
      exprText σ.types value >>= fun text => pure (.expression (place ++ " = " ++ text)) := by
  unfold assignment
  split
  all_goals first | rfl | cases plain

/-- An assignment of what is no literal is accepted as a statement if it is accepted as an
expression. -/
theorem plainStatement_ok_iff {node : Node} (plain : value.isLiteral = false) :
    (∃ a w', expressionStatement (.assign node none target value) σ w = (.ok a, w')) ↔
      Accepted σ.types (.assign node none target value) := by
  have place : Blind (placeText σ.types target) := blind_placeText σ.types target
  have assigned : ∀ (w : Workspace) (text : String),
      (∃ a w', expr (assignment · text (σ.types target.id) value) σ w = (.ok a, w')) ↔
        Accepted σ.types value := by
    intro w text
    have stored : Blind (assignment σ.types text (σ.types target.id) value) :=
      blind_assignment σ.types text _ value
    simp only [expr_ok_iff (assignment · text (σ.types target.id) value) stored,
      assignment_of_plain plain,
      answers_bind (blind_exprText σ.types value) fun _ => blind_pure _, answers_pure]
    constructor
    · rintro ⟨_, part, isPart, -⟩
      exact ⟨part, isPart⟩
    · rintro ⟨part, isPart⟩
      exact ⟨_, part, isPart, rfl⟩
  rw [accepted_assign]
  simp only [expressionStatement, bind_ok, read_bind]
  constructor
  · rintro ⟨a, w', text, w₁, run, rest⟩
    exact ⟨⟨text, (expr_ok_iff (placeText · target) place).1 ⟨w₁, run⟩⟩,
      (assigned w₁ text).1 ⟨a, w', rest⟩⟩
  · rintro ⟨⟨text, isPlace⟩, isValue⟩
    obtain ⟨w₁, run⟩ := (expr_ok_iff (w := w) (placeText · target) place).2 isPlace
    obtain ⟨a, w', rest⟩ := (assigned w₁ text).2 isValue
    exact ⟨a, w', text, w₁, run, rest⟩

/-- A compound assignment is accepted as a statement if it is accepted as an expression. -/
theorem compoundStatement_ok_iff {node : Node} {op : BinaryOp} :
    (∃ a w', expressionStatement (.assign node (some op) target value) σ w = (.ok a, w')) ↔
      Accepted σ.types (.assign node (some op) target value) := by
  have blind := blind_exprText σ.types (.assign node (some op) target value)
  simp only [expressionStatement, bind_ok, pure_ok]
  constructor
  · rintro ⟨a, w', text, w₁, run, -⟩
    exact ⟨text, (expr_ok_iff (exprText · _) blind).1 ⟨w₁, run⟩⟩
  · rintro ⟨text, answers⟩
    obtain ⟨w₁, run⟩ := (expr_ok_iff (w := w) (exprText · _) blind).2 answers
    exact ⟨_, w₁, text, w₁, run, rfl, rfl⟩

end Statements

/-! ## Short and written-out forms -/

/-- **What compound assignments accept.** A compound assignment is accepted exactly as the
assignment that it stands for if it has no text or its operator takes the operands. It has a text as
soon as its target and its value have one, whatever their types are. The same holds of an update, of
an operator before its operand that stands for arithmetic, and of assignments that are
statements. -/
theorem compound_accepted_iff_takes (σ : Setting) (w : Workspace) (node inside : Node)
    (target value : Expr) :
    (∀ op : BinaryOp,
      ((Accepted σ.types (.assign node (some op) target value) ↔
          Accepted σ.types (.assign node none target (.binary inside op target value))) ↔
        (Accepted σ.types (.assign node (some op) target value) →
          Takes σ.types op target value)) ∧
      (∀ text, Answers (exprText σ.types (.assign node (some op) target value)) text ↔
        ∃ place stored, Answers (placeText σ.types target) place ∧
          Answers (exprText σ.types value) stored ∧
          text = place ++ " " ++ op.spelling ++ "= " ++ stored) ∧
      ((∃ a w', expressionStatement (.assign node (some op) target value) σ w = (.ok a, w')) ↔
        Accepted σ.types (.assign node (some op) target value)) ∧
      ((∃ a w',
          expressionStatement (.assign node none target (.binary inside op target value)) σ w =
            (.ok a, w')) ↔
        Accepted σ.types (.assign node none target (.binary inside op target value)))) ∧
    (∀ (op : UpdateOp) (before : Bool) (one : Node),
      (Accepted σ.types (.update node op before target) ↔
          Accepted σ.types
            (.assign node none target (.binary inside op.inner target (.number one "1")))) ↔
        (Accepted σ.types (.update node op before target) →
          Takes σ.types op.inner target (.number one "1"))) ∧
    ∀ (op : UnaryOp) (left : Node) (number : String) (inner : BinaryOp),
      op.inner? = some (number, inner) →
        ((Accepted σ.types (.unary node op value) ↔
            Accepted σ.types (.binary inside inner (.number left number) value)) ↔
          (Accepted σ.types (.unary node op value) →
            Takes σ.types inner (.number left number) value)) := by
  refine ⟨fun op => ⟨?_, fun _ => answers_assign, compoundStatement_ok_iff,
    plainStatement_ok_iff rfl⟩, fun op before one => ?_, fun op left number inner stands => ?_⟩
  · rw [accepted_assignBack, accepted_assign]
    exact iff_self_and
  · rw [accepted_assignBack, accepted_update, and_iff_left (accepted_number "1")]
    exact iff_self_and
  · have arithmetic : op ≠ .not := by
      rintro rfl
      cases stands
    rw [accepted_binary, accepted_unary arithmetic, and_iff_right (accepted_number number)]
    exact iff_self_and

/-- A setting in which one variable is a number and another one is a string. -/
def numberAndString : Setting where
  types
    | 1 => some .number
    | 2 => some .string
    | _ => none
  includeMarker := "ts2c"

/-- The number. -/
def numberVariable : Expr :=
  .ident ⟨1, ⟨0, 1⟩⟩ "n"

/-- The string. -/
def stringVariable : Expr :=
  .ident ⟨2, ⟨0, 1⟩⟩ "s"

/-- Some text. -/
def someText : Expr :=
  .string ⟨3, ⟨5, 8⟩⟩ "b"

/-- A number may be added to in place, and is accepted between two values as well. -/
theorem compound_accepted_iff_takes_number :
    Accepted numberAndString.types (.assign ⟨4, ⟨0, 6⟩⟩ (some .add) numberVariable
        numberVariable) ∧
      Accepted numberAndString.types (.assign ⟨4, ⟨0, 6⟩⟩ none numberVariable
        (.binary ⟨5, ⟨0, 6⟩⟩ .add numberVariable numberVariable)) ∧
      (Accepted numberAndString.types (.unary ⟨4, ⟨0, 2⟩⟩ .neg numberVariable) ↔
        Accepted numberAndString.types (.binary ⟨5, ⟨0, 2⟩⟩ .sub (.number ⟨6, ⟨0, 2⟩⟩ "0")
          numberVariable)) := by
  have types : ∀ op, Takes numberAndString.types op numberVariable numberVariable := by
    rintro op (string | string) <;> cases string
  have zero : Takes numberAndString.types .sub (.number ⟨6, ⟨0, 2⟩⟩ "0") numberVariable := by
    rintro (string | string) <;> cases string
  have short : Accepted numberAndString.types (.assign ⟨4, ⟨0, 6⟩⟩ (some .add) numberVariable
      numberVariable) := ⟨"n += n", fun _ => rfl⟩
  obtain ⟨compound, -, unary⟩ := compound_accepted_iff_takes numberAndString {} ⟨4, ⟨0, 6⟩⟩
    ⟨5, ⟨0, 6⟩⟩ numberVariable numberVariable
  obtain ⟨-, -, negated⟩ := compound_accepted_iff_takes numberAndString {} ⟨4, ⟨0, 2⟩⟩
    ⟨5, ⟨0, 2⟩⟩ numberVariable numberVariable
  exact ⟨short, ((compound .add).1.2 fun _ => types .add).1 short,
    (negated .neg ⟨6, ⟨0, 2⟩⟩ "0" .sub rfl).2 fun _ => zero⟩

/-- Text may be added to a string in place, which is refused between two values. A string may also
be incremented and negated. -/
theorem string_added_in_place :
    (exprText numberAndString.types (.assign ⟨4, ⟨0, 8⟩⟩ (some .add) stringVariable
          someText) {}).1 = .ok "s += \"b\"" ∧
      (exprText numberAndString.types (.assign ⟨4, ⟨0, 8⟩⟩ none stringVariable
          (.binary ⟨5, ⟨0, 8⟩⟩ .add stringVariable someText)) {}).1 =
        .error (.unsupported ⟨0, 8⟩ (.stringOperator .add)) ∧
      (exprText numberAndString.types (.update ⟨4, ⟨0, 3⟩⟩ .increment false stringVariable)
        {}).1 = .ok "s++" ∧
      (exprText numberAndString.types (.unary ⟨4, ⟨0, 2⟩⟩ .neg stringVariable) {}).1 =
        .ok "-s" := by
  refine ⟨?_, ?_, ?_, ?_⟩ <;> rfl

end Emit

end ScriptToC
