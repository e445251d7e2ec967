import ScriptToC.Decimal

/-!
# JSON values

The values in which syntax trees are exchanged. Numbers keep their decimal form. A member that is
`null` counts as absent.
-/

set_option autoImplicit false

namespace ScriptToC

/-- A JSON value. -/
inductive Json
  | null
  | bool (truth : Bool)
  | number (value : Decimal)
  | text (chars : String)
  | list (items : List Json)
  | object (members : List (String × Json))
  deriving Inhabited

namespace Json

mutual

/-- How deep lists and objects are nested in a value. -/
def depth : Json → Nat
  | list items => depthOfList items + 1
  | object members => depthOfMembers members + 1
  | _ => 0

/-- The greatest depth among the elements of a list. -/
def depthOfList : List Json → Nat
  | [] => 0
  | item :: rest => max item.depth (depthOfList rest)

/-- The greatest depth among the members of an object. -/
def depthOfMembers : List (String × Json) → Nat
  | [] => 0
  | (_, value) :: rest => max value.depth (depthOfMembers rest)

end

/-- A member of an object, unless it is absent or `null`. -/
def member? (json : Json) (name : String) : Option Json :=
  match json with
  | object members =>
    match members.lookup name with
    | some null => none
    | other => other
  | _ => none

/-- A text. -/
def text? : Json → Option String
  | text chars => some chars
  | _ => none

/-- A natural number. -/
def nat? : Json → Option Nat
  | number value => value.integer?.map Int.toNat
  | _ => none

/-- A member that is a text. -/
def textAt (json : Json) (name : String) : Option String :=
  (json.member? name).bind text?

/-- A member that is a natural number. -/
def natAt (json : Json) (name : String) : Option Nat :=
  (json.member? name).bind nat?

/-- The elements of a member that is a list; an absent one has none. -/
def listAt (json : Json) (name : String) : List Json :=
  match json.member? name with
  | some (list items) => items
  | _ => []

/-- A member that is a flag; an absent one is false. -/
def flagAt (json : Json) (name : String) : Bool :=
  match json.member? name with
  | some (bool truth) => truth
  | _ => false

end Json

end ScriptToC
