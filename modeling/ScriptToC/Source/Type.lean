/-!
# Type annotations

The type annotations of a script, as far as the types of C values depend on them, and the keys
under which object-shaped things list their members.
-/

set_option autoImplicit false

namespace ScriptToC.Source

/-- A member's key: a name, or something that is computed when the script runs. -/
inductive PropertyKey
  | name (text : String)
  | computed
  deriving DecidableEq, Repr, Inhabited

/-- The name of a type, which may be qualified. -/
inductive TypeName
  | name (text : String)
  | qualified (left : TypeName) (right : String)
  | this
  deriving DecidableEq, Repr, Inhabited

/-- A type's name with its dots. -/
def TypeName.dotted : TypeName → String
  | name text => text
  | qualified left right => left.dotted ++ "." ++ right
  | this => "this"

/-- A member of an interface or an object type, over type annotations. -/
inductive Member (τ : Type)
  /-- Every key has a value of this type. -/
  | index (value : τ)
  | property (key : PropertyKey) (type : Option τ)
  | other
  deriving Inhabited

/-- A type annotation. -/
inductive TypeExpr
  | number
  | boolean
  | string
  | void
  | array (element : TypeExpr)
  | paren (inner : TypeExpr)
  | literal (members : List (Member TypeExpr))
  | named (name : TypeName) (args : List TypeExpr)
  | other
  deriving Inhabited

end ScriptToC.Source
