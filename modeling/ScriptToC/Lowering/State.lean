import ScriptToC.CType.Table
import ScriptToC.Lowering.Declared
import ScriptToC.Lowering.Error

/-!
# The state of lowering

Lowering walks over a script once. It gives every part a node, ties each use of a name to the
binding that is visible there, and records the type of every node. An array that is grown somewhere
has to live on the heap everywhere; as its uses may come before the place where it is grown, the
nodes that carry the type of a binding are remembered, and get the type that the binding has at the
end (`State.resolved`).
-/

set_option autoImplicit false

namespace ScriptToC.Lowering

/-- The number of a declared variable or parameter. -/
abbrev BindingId := Nat

/-- The state of lowering. -/
structure State where
  /-- The next node. -/
  next : NodeId := 0
  types : TypeTable := {}
  /-- The bindings that are visible, the innermost first. -/
  visible : List (String × BindingId) := []
  /-- The types of the bindings, in the order of their declaration. -/
  bindings : Array CType := #[]
  /-- The nodes that carry the type of a binding. -/
  carriers : Std.TreeMap NodeId BindingId := {}
  /-- The names that the script mentions. -/
  mentioned : List String := []

/-- A step of lowering. -/
abbrev LowerM (α : Type) := ReaderT Declared (StateT State (Except Rejection)) α

/-- Rejects the script. -/
def reject {α : Type} (span : Span) (cause : Cause) : LowerM α :=
  throw ⟨span, cause⟩

namespace State

/-- The type of a node; one that has none is unknown. -/
def typeOf (state : State) (id : NodeId) : CType :=
  (state.types.find? id).getD .unknown

/-- The state with a type recorded for a node. -/
def record (state : State) (id : NodeId) (type : CType) : State :=
  { state with types := state.types.insert id type }

/-- The state with a name mentioned. -/
def mention (state : State) (name : String) : State :=
  { state with mentioned := name :: state.mentioned }

/-- The binding whose type a node carries. -/
def bindingOf? (state : State) (id : NodeId) : Option BindingId :=
  state.carriers[id]?

/-- The state with a new binding, visible from here on. -/
def declare (state : State) (name : String) (type : CType) (id : NodeId) : State :=
  let binding := state.bindings.size
  mention (record { state with
    bindings := state.bindings.push type
    visible := (name, binding) :: state.visible
    carriers := state.carriers.insert id binding } id type) name

/-- The state with a use of a name at a node, which carries the type of the visible binding. -/
def use (state : State) (name : String) (id : NodeId) : State :=
  let state := state.mention name
  match state.visible.lookup name with
  | some binding =>
    record { state with carriers := state.carriers.insert id binding } id
      ((state.bindings[binding]?).getD .unknown)
  | none => state.record id .unknown

/-- The state in which one node carries whatever type another one carries. -/
def shareType (state : State) (outer inner : NodeId) : State :=
  let carriers := match state.bindingOf? inner with
    | some binding => state.carriers.insert outer binding
    | none => state.carriers
  record { state with carriers } outer (state.typeOf inner)

/-- The state in which a binding, if it is an array, lives on the heap. -/
def grow (state : State) (binding : BindingId) : State :=
  { state with bindings := state.bindings.modify binding CType.onHeap }

/-- The types of all nodes: a node that carries the type of a binding has the type that the binding
has at the end. -/
def resolved (state : State) : TypeTable :=
  state.types.map fun id type =>
    ((state.bindingOf? id).bind fun binding => state.bindings[binding]?).getD type

end State

/-- A new node. -/
def freshId : LowerM NodeId :=
  modifyGet fun state => (state.next, { state with next := state.next + 1 })

/-- A new node for a part of the source. -/
def freshNode (span : Span) : LowerM Node :=
  return ⟨← freshId, span⟩

/-- Runs a step and forgets the bindings that it made visible. -/
def inScope {α : Type} (action : LowerM α) : LowerM α := do
  let visible := (← get).visible
  let result ← action
  modify fun state => { state with visible }
  return result

/-- The name of a variable, which must not be a pattern. -/
def plainName (name : Option String) (span : Span) : LowerM String :=
  match name with
  | some name => return name
  | none => reject span .destructuring

end ScriptToC.Lowering
