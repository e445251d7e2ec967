import ScriptToC.Proofs.Containers.Stores

/-!
# Expressions that have a text

An expression has a C text only if all of its operands have one, and if the construct itself has one
for operands of these types. So emitting an expression, if it succeeds, is a derivation
(`emittable_exprText`), as emitting a statement is; what holds of emitted expressions is proved by
induction on the derivation.
-/

set_option autoImplicit false

namespace ScriptToC

/-! ## Parts of rows -/

namespace Ir

/-- The parts of an expression in a row are parts of the row. -/
theorem parts_subset_listParts : ∀ {list : List Expr} {e : Expr}, e ∈ list →
    e.parts ⊆ listParts list
  | first :: rest, e, member => by
      rw [listParts]
      rcases List.mem_cons.1 member with rfl | member
      · exact List.subset_append_left _ _
      · exact List.Subset.trans (parts_subset_listParts member) (List.subset_append_right _ _)

/-- The parts of a value of a property are parts of the object. -/
theorem parts_subset_propertyParts : ∀ {list : List (String × Expr)} {p : String × Expr},
    p ∈ list → p.2.parts ⊆ propertyParts list
  | (_, first) :: rest, p, member => by
      rw [propertyParts]
      rcases List.mem_cons.1 member with rfl | member
      · exact List.subset_append_left _ _
      · exact List.Subset.trans (parts_subset_propertyParts member) (List.subset_append_right _ _)

/-- A part of a row is a part of one of its expressions. -/
theorem mem_listParts : ∀ {list : List Expr} {part : Part}, part ∈ listParts list →
    ∃ e ∈ list, part ∈ e.parts
  | first :: rest, part, member => by
      rcases List.mem_append.1 member with here | later
      · exact ⟨first, List.mem_cons_self, here⟩
      · obtain ⟨e, isElement, inside⟩ := mem_listParts later
        exact ⟨e, List.mem_cons_of_mem _ isElement, inside⟩

/-- A part of the values of some properties is a part of one of them. -/
theorem mem_propertyParts : ∀ {list : List (String × Expr)} {part : Part},
    part ∈ propertyParts list → ∃ p ∈ list, part ∈ p.2.parts
  | first :: rest, part, member => by
      rcases List.mem_append.1 member with here | later
      · exact ⟨first, List.mem_cons_self, here⟩
      · obtain ⟨p, isProperty, inside⟩ := mem_propertyParts later
        exact ⟨p, List.mem_cons_of_mem _ isProperty, inside⟩

end Ir

namespace Emit

open Ir

mutual

/-- An expression that has a C text. Nothing is said of the fields that a structure has. -/
inductive Emittable (types : Types) : Expr → Prop
  | number (node : Node) (text : String) : Emittable types (.number node text)
  | string (node : Node) (text : String) : Emittable types (.string node text)
  | bool (node : Node) (value : Bool) : Emittable types (.bool node value)
  | null (node : Node) : Emittable types (.null node)
  | ident (node : Node) (name : String) : Emittable types (.ident node name)
  | paren {node : Node} {inner : Expr} (part : Emittable types inner) :
      Emittable types (.paren node inner)
  | member {node : Node} {object : Expr} {property : String} (part : Emittable types object) :
      Emittable types (.member node object property)
  | index {node : Node} {object key : Expr} (part : Emittable types object)
      (keyPart : Emittable types key) : Emittable types (.index node object key)
  | print {node inner : Node} {object : Expr} {args : List Expr}
      (isConsole : object.ident? = some "console") (each : ∀ arg ∈ args, Emittable types arg) :
      Emittable types (.call node (.member inner object "log") args)
  | method {node inner : Node} {object : Expr} {property : String} {args : List Expr}
      (isMethod : ¬ (object.ident? = some "console" ∧ property = "log"))
      (isDynamic : (typeOf types object).isDynamicArray = true) (part : Emittable types object)
      (each : ∀ arg ∈ args, Emittable types arg) :
      Emittable types (.call node (.member inner object property) args)
  | call {node : Node} {callee : Expr} {name : String} {args : List Expr}
      (named : callee.ident? = some name) (each : ∀ arg ∈ args, Emittable types arg) :
      Emittable types (.call node callee args)
  | unary {node : Node} {op : UnaryOp} {arg : Expr} (part : Emittable types arg) :
      Emittable types (.unary node op arg)
  | update {node : Node} {op : UpdateOp} {before : Bool} {target : Expr}
      (place : EmittablePlace types target) : Emittable types (.update node op before target)
  /-- Strings can only be compared for equality. -/
  | binary {node : Node} {op : BinaryOp} {lhs rhs : Expr}
      (allowed : (typeOf types lhs).isString || (typeOf types rhs).isString → op = .eq ∨ op = .ne)
      (left : Emittable types lhs) (right : Emittable types rhs) :
      Emittable types (.binary node op lhs rhs)
  | logical {node : Node} {op : LogicalOp} {lhs rhs : Expr} (left : Emittable types lhs)
      (right : Emittable types rhs) : Emittable types (.logical node op lhs rhs)
  | assign {node : Node} {op : Option BinaryOp} {target value : Expr}
      (place : EmittablePlace types target) (part : Emittable types value) :
      Emittable types (.assign node op target value)
  | conditional {node : Node} {test yes no : Expr} (first : Emittable types test)
      (second : Emittable types yes) (third : Emittable types no) :
      Emittable types (.conditional node test yes no)

/-- A place that has a C text. -/
inductive EmittablePlace (types : Types) : Expr → Prop
  | ident (node : Node) (name : String) : EmittablePlace types (.ident node name)
  | paren {node : Node} {inner : Expr} (part : EmittablePlace types inner) :
      EmittablePlace types (.paren node inner)
  | member {node : Node} {object : Expr} {property : String} (part : Emittable types object) :
      EmittablePlace types (.member node object property)
  | index {node : Node} {object key : Expr} (part : Emittable types object)
      (keyPart : Emittable types key) : EmittablePlace types (.index node object key)

end

variable {types : Types}

/-- What has a name is called by this name. -/
theorem exprTree_call {node : Node} {callee : Expr} {name : String} {args : List Expr}
    (named : callee.ident? = some name) :
    exprTree types (.call node callee args) = .call (.name name) (exprTrees types args) := by
  cases callee with
  | ident | paren =>
    rw [exprTree, named]
    · rfl
    · intro _ _ _ same
      cases same
  | _ => cases named

/-! ## Operators and calls -/

theorem emittable_binaryText {node : Node} {op : BinaryOp} {lhs rhs : Expr}
    (left : Gives (exprText types lhs) fun _ => Emittable types lhs)
    (right : Gives (exprText types rhs) fun _ => Emittable types rhs) :
    Gives (binaryText types node op lhs rhs (exprText types lhs) (exprText types rhs)) fun _ =>
      Emittable types (.binary node op lhs rhs) := by
  refine left.bind fun _ first => right.bind fun _ second => ?_
  split
  next =>
    split
    · exact gives_of (.binary (fun _ => .inl rfl) first second)
    · exact gives_of (.binary (fun _ => .inr rfl) first second)
    · exact gives_unsupported _ _
  next noString => exact gives_of (.binary (fun isString => absurd isString noString) first second)

section Arguments

variable {es : List Expr} (each : ∀ e ∈ es, Gives (exprText types e) fun _ => Emittable types e)

include each

theorem emittable_printText :
    Gives (printText types es (es.map (exprText types))) fun _ => ∀ e ∈ es, Emittable types e := by
  refine (gives_needs "stdio").bind fun _ _ => Gives.start ?_
  have items : ∀ item ∈ es.zip (es.map (exprText types)),
      Gives (printedText types item.1 item.2) fun _ => Emittable types item.1 := by
    rw [← List.map_prod_left_eq_zip]
    intro item member
    obtain ⟨e, isArg, rfl⟩ := List.mem_map.1 member
    exact Gives.start (each e isArg)
  intro _ _ _ run e isArg
  have all := Gives.each items run
  rw [← List.map_prod_left_eq_zip] at all
  exact all _ (List.mem_map_of_mem isArg)

theorem emittable_callText {node : Node} {callee : Expr} :
    Gives (callText callee (es.map (exprText types))) fun _ =>
      Emittable types (.call node callee es) := by
  unfold callText
  split
  next => exact gives_unsupported _ _
  next name named =>
    refine Gives.start ?_
    rw [List.mapM_map]
    have args := Gives.each each
    exact fun _ _ _ run => .call named (args run)

theorem emittable_methodText {node inner : Node} {object : Expr} {name : String}
    (isMethod : ¬ (object.ident? = some "console" ∧ name = "log"))
    (part : Gives (exprText types object) fun _ => Emittable types object) :
    Gives (methodText types node object name (exprText types object) (es.map (exprText types)))
      fun _ => Emittable types (.call node (.member inner object name) es) := by
  unfold methodText
  dsimp only
  split
  next isDynamic =>
    refine part.bind fun _ here => ?_
    split
    next value eq =>
      obtain ⟨arg, rfl, rfl⟩ := List.map_eq_singleton_iff.1 eq
      refine (each arg List.mem_cons_self).bind fun _ first => gives_of ?_
      exact .method isMethod isDynamic here (by simpa using first)
    next eq =>
      rw [List.map_eq_nil_iff] at eq
      subst eq
      exact gives_of (.method isMethod isDynamic here nofun)
    · exact gives_unsupported _ _
  next => exact gives_unsupported _ _

end Arguments

/-! ## Expressions -/

mutual

/-- An expression whose emission succeeds has a text. -/
theorem emittable_exprText : ∀ e : Expr, Gives (exprText types e) fun _ => Emittable types e
  | .number node text => gives_of (.number node text)
  | .string node text => gives_of (.string node text)
  | .bool node value => gives_of (.bool node value)
  | .null node => gives_of (.null node)
  | .ident node name => gives_of (.ident node name)
  | .paren _ inner => by
      rw [exprText]
      exact (emittable_exprText inner).bind fun _ part => gives_of (.paren part)
  | .array .. | .object .. => by
      rw [exprText]
      exact gives_unsupported _ _
  | .member _ object _ => by
      rw [exprText]
      exact (emittable_exprText object).bind fun _ part => gives_of (.member part)
  | .index _ object key => by
      rw [exprText]
      refine (emittable_exprText object).bind fun _ part => ?_
      exact (emittable_exprText key).bind fun _ keyPart => gives_of (.index part keyPart)
  | .call _ callee args => by
      have each := emittable_exprTexts args
      cases callee with
      | member inner object property =>
          rw [exprText, exprTexts_eq_map]
          split
          next isPrint =>
            obtain ⟨isConsole, rfl⟩ := isPrint
            exact fun _ _ _ run => .print isConsole (emittable_printText each run)
          next isMethod => exact emittable_methodText each isMethod (emittable_exprText object)
      | _ =>
          rw [exprText, exprTexts_eq_map]
          · exact emittable_callText each
          · nofun
  | .unary _ op arg => by
      cases op with
      | not =>
          rw [exprText]
          have test : Gives (conditionText types arg (exprText types arg)) fun _ =>
              Emittable types arg := Gives.start (emittable_exprText arg)
          exact test.bind fun _ part => gives_of (.unary part)
      | _ =>
          rw [exprText]
          exact (emittable_exprText arg).bind fun _ part => gives_of (.unary part)
  | .update _ _ _ target => by
      rw [exprText]
      exact (emittable_placeText target).bind fun _ place => gives_of (.update place)
  | .binary _ _ lhs rhs => by
      rw [exprText]
      exact emittable_binaryText (emittable_exprText lhs) (emittable_exprText rhs)
  | .logical _ _ lhs rhs => by
      rw [exprText]
      have left : Gives (conditionText types lhs (exprText types lhs)) fun _ =>
          Emittable types lhs := Gives.start (emittable_exprText lhs)
      have right : Gives (conditionText types rhs (exprText types rhs)) fun _ =>
          Emittable types rhs := Gives.start (emittable_exprText rhs)
      exact left.bind fun _ first => right.bind fun _ second => gives_of (.logical first second)
  | .assign _ _ target value => by
      rw [exprText]
      refine (emittable_placeText target).bind fun _ place => ?_
      exact (emittable_exprText value).bind fun _ part => gives_of (.assign place part)
  | .conditional _ test yes no => by
      rw [exprText]
      have first : Gives (conditionText types test (exprText types test)) fun _ =>
          Emittable types test := Gives.start (emittable_exprText test)
      refine first.bind fun _ first => (emittable_exprText yes).bind fun _ second => ?_
      exact (emittable_exprText no).bind fun _ third => gives_of (.conditional first second third)

/-- A place whose emission succeeds has a text. -/
theorem emittable_placeText : ∀ e : Expr,
    Gives (placeText types e) fun _ => EmittablePlace types e
  | .ident node name => gives_of (.ident node name)
  | .paren _ inner => by
      rw [placeText]
      exact fun _ _ _ run => .paren (emittable_placeText inner run)
  | .member _ object _ => by
      rw [placeText]
      exact (emittable_exprText object).bind fun _ part => gives_of (.member part)
  | .index _ object key => by
      rw [placeText]
      refine (emittable_exprText object).bind fun _ part => ?_
      exact (emittable_exprText key).bind fun _ keyPart => gives_of (.index part keyPart)
  | .number .. | .string .. | .bool .. | .null _ | .array .. | .object .. | .call .. | .unary ..
  | .update .. | .binary .. | .logical .. | .assign .. | .conditional .. => by
      rw [placeText]
      · exact gives_unsupported _ _
      all_goals nofun

theorem emittable_exprTexts : ∀ es : List Expr, ∀ e ∈ es,
    Gives (exprText types e) fun _ => Emittable types e
  | [] => nofun
  | e :: rest => List.forall_mem_cons.2 ⟨emittable_exprText e, emittable_exprTexts rest⟩

end

theorem emittable_condition (e : Expr) : Gives (condition types e) fun _ => Emittable types e :=
  Gives.start (emittable_exprText e)

/-! ## Assignments -/

/-- A value that can be assigned: an expression that has a text, or a literal of such values. -/
structure EmittableValue (types : Types) (value : Expr) : Prop where
  whole : value.isLiteral = false → Emittable types value
  contents : ∀ e ∈ value.contents, Emittable types e

theorem Emittable.value {e : Expr} (emittable : Emittable types e) : EmittableValue types e where
  whole := fun _ => emittable
  contents := by
    intro inner member
    cases emittable <;> cases member

theorem emittable_assignment (target : String) (type : Option CType) (value : Expr) :
    Gives (assignment types target type value) fun _ => EmittableValue types value := by
  unfold assignment
  split
  next node elements element capacity dynamic =>
    split
    · exact gives_unsupported _ _
    next =>
      have lines : Gives (arrayLines types target element dynamic elements) fun _ =>
          ∀ e ∈ elements, Emittable types e := by
        refine Gives.start fun _ _ _ run e member => ?_
        have all := Gives.each (fun part _ => Gives.start (emittable_exprText part.1)) run
        rw [← List.zipIdx_map_fst 0 elements] at member
        obtain ⟨part, isPart, rfl⟩ := List.mem_map.1 member
        exact all part isPart
      exact lines.bind fun _ contents => gives_of ⟨nofun, contents⟩
  next node properties element =>
    have lines : Gives (dictLines types target properties) fun _ =>
        ∀ property ∈ properties, Emittable types property.2 := by
      refine Gives.start fun _ _ _ run => ?_
      exact Gives.each (fun property _ => Gives.start (emittable_exprText property.2)) run
    exact lines.bind fun _ contents => gives_of ⟨nofun, List.forall_mem_map.2 contents⟩
  · exact gives_unsupported _ _
  · exact gives_unsupported _ _
  · exact gives_unsupported _ _
  · exact gives_unsupported _ _
  · exact (emittable_exprText value).bind fun _ part => gives_of part.value

end Emit

end ScriptToC
