import ScriptToC.Emit.Error
import ScriptToC.Ir.Stmt

/-!
# The places of a module

Each node of a module stands at some bytes of the source. `Module.spans` lists the bytes of all
nodes: of the functions, the statements, the declared variables and the expressions, at every depth.
An error lies in the source if it names such bytes (`EmitError.LiesIn`).
-/

set_option autoImplicit false

namespace ScriptToC

open Ir

/-! ## The bytes of the nodes -/

namespace Ir

mutual

/-- The bytes of an expression and of every expression in it. -/
def Expr.spans : Expr → List Span
  | .number node _ | .string node _ | .bool node _ | .null node | .ident node _ => [node.span]
  | .paren node inner => node.span :: inner.spans
  | .array node elements => node.span :: listSpans elements
  | .object node properties => node.span :: propertySpans properties
  | .member node object _ => node.span :: object.spans
  | .index node object key => node.span :: (object.spans ++ key.spans)
  | .call node callee args => node.span :: (callee.spans ++ listSpans args)
  | .unary node _ arg => node.span :: arg.spans
  | .update node _ _ target => node.span :: target.spans
  | .binary node _ lhs rhs | .logical node _ lhs rhs => node.span :: (lhs.spans ++ rhs.spans)
  | .assign node _ target value => node.span :: (target.spans ++ value.spans)
  | .conditional node test yes no => node.span :: (test.spans ++ (yes.spans ++ no.spans))

/-- The bytes of the nodes of expressions. -/
def listSpans : List Expr → List Span
  | [] => []
  | e :: rest => e.spans ++ listSpans rest

/-- The bytes of the nodes in the values of properties. -/
def propertySpans : List (String × Expr) → List Span
  | [] => []
  | (_, e) :: rest => e.spans ++ propertySpans rest

end

/-- The bytes of the nodes of a part that may be missing. -/
def partSpans (part : Option Expr) : List Span :=
  part.elim [] Expr.spans

/-- The bytes of the nodes of a declared variable. -/
def Declarator.spans (declarator : Declarator) : List Span :=
  declarator.node.span :: partSpans declarator.init

/-- The bytes of the nodes at the start of a `for` loop. -/
def startSpans : Option ForInit → List Span
  | none => []
  | some (.declare declarators) => declarators.flatMap Declarator.spans
  | some (.evaluate e) => e.spans

/-- The bytes of the nodes that a loop over a collection assigns to. -/
def ForBinding.spans : ForBinding → List Span
  | declare declarator => declarator.spans
  | target e => e.spans

mutual

/-- The bytes of a statement and of every node in it. -/
def Stmt.spans : Stmt → List Span
  | .breakStmt node | .continueStmt node | .emptyStmt node | .importFrom node _ => [node.span]
  | .returnStmt node value => node.span :: partSpans value
  | .ifThen node test ⟨_, body⟩ => node.span :: (test.spans ++ rowSpans body)
  | .ifElse node test ⟨_, body⟩ ⟨_, otherwise⟩ =>
    node.span :: (test.spans ++ (rowSpans body ++ rowSpans otherwise))
  | .switchOn node discriminant clauses => node.span :: (discriminant.spans ++ clauseSpans clauses)
  | .whileLoop node test ⟨_, body⟩ => node.span :: (test.spans ++ rowSpans body)
  | .doLoop node ⟨_, body⟩ test => node.span :: (rowSpans body ++ test.spans)
  | .forLoop node init test update ⟨_, body⟩ =>
    node.span :: (startSpans init ++ (partSpans test ++ (partSpans update ++ rowSpans body)))
  | .forOf node left right body => node.span :: (left.spans ++ (right.spans ++ body.spans))
  | .forIn node left right ⟨_, body⟩ => node.span :: (left.spans ++ (right.spans ++ rowSpans body))
  | .expression node e => node.span :: e.spans
  | .block node body => node.span :: rowSpans body
  | .declaration node declarators => node.span :: declarators.flatMap Declarator.spans

/-- The bytes of the nodes of statements in a row. -/
def rowSpans : List Stmt → List Span
  | [] => []
  | first :: rest => first.spans ++ rowSpans rest

/-- The bytes of the nodes of the clauses of a `switch`. -/
def clauseSpans : List (Clause Stmt) → List Span
  | [] => []
  | ⟨test, body⟩ :: rest => partSpans test ++ (rowSpans body ++ clauseSpans rest)

end

/-- The bytes of a function and of every node in it. -/
def Function.spans (function : Function) : List Span :=
  function.node.span :: rowSpans function.body

/-- The bytes of every node of a module. -/
def Module.spans (module : Module) : List Span :=
  module.functions.flatMap Function.spans ++ rowSpans module.topLevel

theorem Expr.span_mem_spans (e : Expr) : e.span ∈ e.spans := by
  cases e <;> simp only [span, node, spans, List.mem_cons, true_or]

theorem spans_subset_of_mem {es : List Expr} {e : Expr} (member : e ∈ es) :
    e.spans ⊆ listSpans es := by
  induction es with
  | nil => cases member
  | cons first rest ih =>
    rw [listSpans]
    rcases List.mem_cons.1 member with rfl | later
    · exact List.subset_append_left _ _
    · exact List.subset_append_of_subset_right _ (ih later)

theorem spans_subset_of_mem_properties {properties : List (String × Expr)} {key : String} {e : Expr}
    (member : (key, e) ∈ properties) : e.spans ⊆ propertySpans properties := by
  induction properties with
  | nil => cases member
  | cons first rest ih =>
    obtain ⟨name, value⟩ := first
    rw [propertySpans]
    rcases List.mem_cons.1 member with same | later
    · cases same
      exact List.subset_append_left _ _
    · exact List.subset_append_of_subset_right _ (ih later)

end Ir

/-- The error lies in the source, at one of these places. -/
def EmitError.LiesIn (spans : List Span) : EmitError → Prop
  | missingType span _ => span ∈ spans
  | unsupported span _ => span ∈ spans
  | template _ => False
  | unknownScope _ => False

end ScriptToC
