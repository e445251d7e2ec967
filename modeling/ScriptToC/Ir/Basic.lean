import ScriptToC.CType.Table

/-!
# Nodes

Every expression, statement and declaration of a program carries a node: an identity, under which
its type and its allocated names are kept, and the bytes of the source it came from.
-/

set_option autoImplicit false

namespace ScriptToC

/-- A range of bytes of the source. -/
structure Span where
  start : Nat
  stop : Nat
  deriving DecidableEq, Repr, Inhabited

/-- The form of a span in messages. -/
def Span.display (span : Span) : String :=
  toString span.start ++ ".." ++ toString span.stop

/-- The identity of a part of a program and its place in the source. -/
structure Node where
  id : NodeId
  span : Span
  deriving DecidableEq, Repr, Inhabited

end ScriptToC
