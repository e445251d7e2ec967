import ScriptToC.Proofs.Evaluation.Memory
import ScriptToC.Proofs.Runtime.Codes

/-!
# What emitted code does with memory

C evaluates an expression to a place, or to a value that is kept nowhere (`Operand`). Where
variables and elements are and what operators and functions do is up to a `Machine`. With it, an
expression is an action on memory (`Machine.operand`), and so is a line of an assignment
(`Machine.perform`); the macros of the runtime are what they expand to.

Where C leaves the order open, operands are evaluated from left to right. Memory is asked for by the
number of elements, and the position that `DICT_SET` keeps in a variable of its own is in no cell.
-/

set_option autoImplicit false

namespace ScriptToC

open Ir

/-- Where C keeps values, and what it computes. -/
structure Machine (Address Value : Type) where
  /-- Where a variable is. -/
  variableAt : String → Address
  /-- The pointer to the first element, if an array is there. -/
  array? : Address → Option Value
  /-- What a pointer points to. -/
  target : Value → Address
  /-- A field of the structure that a pointer points to. -/
  field : Value → String → Address
  /-- The element that has an index, counted from where a pointer points to. -/
  element : Value → Value → Address
  number : String → Value
  literal : String → Value
  truth : Value → Bool
  ofBool : Bool → Value
  unary : UnaryOp → Value → Value
  binary : BinaryOp → Value → Value → Value
  step : UpdateOp → Value → Value
  function : String → List Value → Action Address Value Value

/-- What an expression is evaluated to. -/
inductive Operand (Address Value : Type)
  | place (find : Action Address Value Address)
  | value (find : Action Address Value Value)

namespace Machine

variable {Address Value : Type} (machine : Machine Address Value)

/-! ## Operands -/

/-- What stands at an address. An array stands for the pointer to its first element. -/
def fetch (address : Address) : Action Address Value Value :=
  match machine.array? address with
  | some pointer => pure pointer
  | none => .load address

/-- The value of an operand. -/
def value : Operand Address Value → Action Address Value Value
  | .place find => do machine.fetch (← find)
  | .value find => find

/-- The field of a structure. -/
def arrow (object : Operand Address Value) (name : String) : Operand Address Value :=
  .place do return machine.field (← machine.value object) name

/-- The place of an element. -/
def elementPlace (array key : Operand Address Value) : Action Address Value Address := do
  let pointer ← machine.value array
  let offset ← machine.value key
  return machine.element pointer offset

/-- An element. -/
def index (array key : Operand Address Value) : Operand Address Value :=
  .place (machine.elementPlace array key)

/-- A call of a function. -/
def call (name : String) (args : List (Operand Address Value)) : Operand Address Value :=
  .value do machine.function name (← args.mapM machine.value)

/-- One of two operands. -/
def conditional (test yes no : Operand Address Value) : Operand Address Value :=
  .value do if machine.truth (← machine.value test) then machine.value yes else machine.value no

/-- An assignment, with an operator if it is a compound one. C refuses one to what is no place. -/
def assign (op : Option BinaryOp) :
    Operand Address Value → Operand Address Value → Operand Address Value
  | .place find, operand => .value do
    let place ← find
    let stored ← match op with
      | none => machine.value operand
      | some op => return machine.binary op (← machine.fetch place) (← machine.value operand)
    Action.save place stored
    return stored
  | .value find, _ => .value find

/-- An update, whose value is the old one if the operator stands after its target. -/
def update (op : UpdateOp) (before : Bool) : Operand Address Value → Operand Address Value
  | .place find => .value do
    let place ← find
    let old ← machine.fetch place
    Action.save place (machine.step op old)
    return if before then machine.step op old else old
  | .value find => .value find

/-- An operator before its operand. -/
def before : OuterOp → Operand Address Value → Operand Address Value
  | .unary op, operand => .value do return machine.unary op (← machine.value operand)
  | .deref, operand => .place do return machine.target (← machine.value operand)
  | .update op, operand => machine.update op true operand

/-- An operator between two operands. The second one is left out if the first one decides. -/
def between : InnerOp → Operand Address Value → Operand Address Value → Operand Address Value
  | .strict op, lhs, rhs => .value do
    return machine.binary op (← machine.value lhs) (← machine.value rhs)
  | .lazy .and, lhs, rhs => .value do
    if machine.truth (← machine.value lhs) then
      return machine.ofBool (machine.truth (← machine.value rhs))
    else
      return machine.ofBool false
  | .lazy .or, lhs, rhs => .value do
    if machine.truth (← machine.value lhs) then
      return machine.ofBool true
    else
      return machine.ofBool (machine.truth (← machine.value rhs))

/-- A number. -/
def constant (text : String) : Operand Address Value :=
  .value (pure (machine.number text))

/-! ## Macros -/

/-- The position of a key, which `dict_find_pos` looks for. -/
def position (dict key : Operand Address Value) : Operand Address Value :=
  machine.call "dict_find_pos"
    [machine.arrow (machine.arrow dict "index") "data",
      machine.arrow (machine.arrow dict "index") "size", key]

/-- The value at a position of a dictionary. -/
def valueAt (dict position : Operand Address Value) : Operand Address Value :=
  machine.index (machine.arrow (machine.arrow dict "values") "data") position

/-- What `ARRAY_POP` expands to. -/
def pop (array : Operand Address Value) : Operand Address Value :=
  let size := machine.arrow array "size"
  machine.conditional (machine.between (.strict .ne) size (machine.constant "0"))
    (machine.index (machine.arrow array "data") (machine.update .decrement true size))
    (machine.constant "0")

/-- A call in an expression, of a macro or of a function. -/
def invoke : String → List (Operand Address Value) → Operand Address Value
  | "DICT_GET", [dict, key] => machine.valueAt dict (machine.position dict key)
  | "ARRAY_POP", [array] => machine.pop array
  | name, args => machine.call name args

/-- What `ARRAY_CREATE` expands to. -/
def createArray (array capacity size : Operand Address Value) : Action Address Value Unit := do
  discard <| machine.value (machine.assign none array (machine.call "malloc" []))
  discard <| machine.value
    (machine.assign none (machine.arrow array "data") (machine.call "malloc" [capacity]))
  discard <| machine.value (machine.assign none (machine.arrow array "capacity") capacity)
  discard <| machine.value (machine.assign none (machine.arrow array "size") size)

/-- What `DICT_CREATE` expands to. -/
def createDict (dict capacity : Operand Address Value) : Action Address Value Unit := do
  discard <| machine.value (machine.assign none dict (machine.call "malloc" []))
  machine.createArray (machine.arrow dict "index") capacity (machine.constant "0")
  machine.createArray (machine.arrow dict "values") capacity (machine.constant "0")

/-- The place where `ARRAY_PUSH` puts an element, for which it makes room. -/
def newElement (array : Operand Address Value) : Action Address Value Address := do
  let data := machine.arrow array "data"
  let capacity := machine.arrow array "capacity"
  let full ← machine.value
    (machine.between (.strict .eq) (machine.arrow array "size") capacity)
  if machine.truth full then
    discard <| machine.value (machine.assign (some .mul) capacity (machine.constant "2"))
    discard <| machine.value
      (machine.assign none data (machine.call "realloc" [data, capacity]))
  machine.elementPlace data (machine.update .increment false (machine.arrow array "size"))

/-- What `ARRAY_PUSH` expands to. -/
def push (array item : Operand Address Value) : Line Address Value where
  locate := machine.newElement array
  element := machine.value item

/-- What `DICT_SET` expands to: a key that is not there is added, and the value of a key that is
there is replaced. -/
def setEntry (dict key item : Operand Address Value) : Line Address Value where
  locate := do
    let position ← machine.value (machine.position dict key)
    if machine.truth (machine.binary .lt position (machine.number "0")) then
      (machine.push (machine.arrow dict "index") key).action
      machine.newElement (machine.arrow dict "values")
    else
      machine.elementPlace (machine.arrow (machine.arrow dict "values") "data")
        (.value (pure position))
  element := machine.value item

/-! ## Expressions and lines -/

mutual

/-- What an expression is evaluated to. -/
def operand : CExpr → Operand Address Value
  | .name text =>
    if text = "NULL" then machine.constant "0" else .place (pure (machine.variableAt text))
  | .number text => machine.constant text
  | .literal text => .value (pure (machine.literal text))
  | .paren inner => operand inner
  | .call callee args => machine.invoke (String.ofList callee.chars) (operands args)
  | .arrow object field => machine.arrow (operand object) field
  | .index object key => machine.index (operand object) (operand key)
  | .after op target => machine.update op false (operand target)
  | .before op arg => machine.before op (operand arg)
  | .between op lhs rhs => machine.between op (operand lhs) (operand rhs)
  | .conditional test yes no => machine.conditional (operand test) (operand yes) (operand no)
  | .assign op target value => machine.assign op (operand target) (operand value)

/-- What several expressions are evaluated to. -/
def operands : List CExpr → List (Operand Address Value)
  | [] => []
  | tree :: rest => operand tree :: operands rest

end

/-- A line that stores a value at an element. -/
def storeAt (array key item : CExpr) : Line Address Value where
  locate := machine.elementPlace (machine.operand array) (machine.operand key)
  element := machine.value (machine.operand item)

/-- What a statement does that consists of an expression. -/
def statement : CExpr → Action Address Value Unit
  | .call (.name "ARRAY_CREATE") [array, capacity, size] =>
    machine.createArray (machine.operand array) (machine.operand capacity) (machine.operand size)
  | .call (.name "DICT_CREATE") [dict, capacity] =>
    machine.createDict (machine.operand dict) (machine.operand capacity)
  | .call (.name "DICT_SET") [dict, key, item] =>
    (machine.setEntry (machine.operand dict) (machine.operand key) (machine.operand item)).action
  | .call (.name "ARRAY_PUSH") [array, item] =>
    (machine.push (machine.operand array) (machine.operand item)).action
  | tree => discard (machine.value (machine.operand tree))

/-- What a line of an assignment does. -/
def perform : Code → Action Address Value Unit
  | .store place _ item =>
    discard (machine.value (machine.assign none (machine.operand place) (machine.operand item)))
  | .line tree | .expression tree => machine.statement tree
  | .comparison test _ => machine.statement test
  | .absent => pure ()

/-! ## Created containers -/

section Creation

variable [DecidableEq Address] (address : Address) (memory : Address → Value)

/-- An assignment to a place writes there, whatever is done afterwards. -/
theorem mem_writes_assign (operand : Operand Address Value)
    (others : Action Address Value Unit) :
    address ∈ ((do
      discard <| machine.value (machine.assign none (.place (pure address)) operand)
      others).run memory).writes := by
  rw [Action.run_bind]
  refine List.mem_append_left _ ?_
  change address ∈ ((discard (do
    let stored ← machine.value operand
    Action.save address stored
    return stored) : Action Address Value Unit).run memory).writes
  simp only [discard, map_const, Function.comp_apply, map_bind, map_pure, Function.const_apply,
    bind_pure_unit, Action.run_bind, Action.save, Action.run]
  exact List.mem_append_right _ (List.mem_singleton_self _)

/-- Where an array is created, the pointer to it is written. -/
theorem mem_writes_createArray (capacity size : Operand Address Value) :
    address ∈ ((machine.createArray (.place (pure address)) capacity size).run memory).writes :=
  machine.mem_writes_assign address memory _ _

/-- Where a dictionary is created, the pointer to it is written. -/
theorem mem_writes_createDict (capacity : Operand Address Value) :
    address ∈ ((machine.createDict (.place (pure address)) capacity).run memory).writes :=
  machine.mem_writes_assign address memory _ _

end Creation

end Machine

end ScriptToC
