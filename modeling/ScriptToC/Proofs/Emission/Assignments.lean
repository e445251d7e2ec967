import ScriptToC.Proofs.Emission.Emittable

/-!
# Assignments in the text of a file

The assignments of a module stand in what is emitted for it: in an expression, or as a statement of
their own (`program_assigns`).

Some expressions of a module have no text in the file: the array whose fixed length is asked for,
the discriminant of a `switch` that compares it with nothing, the place that an empty array of a
fixed length is assigned to, and the initializer of the variable of a loop over a collection
(`Ir.Part.unwritten`). All other assignments stand in the file.
-/

set_option autoImplicit false

namespace ScriptToC

open Ir Text

/-! ## Trees in trees -/

/-- A tree stands in one of the codes. -/
def CExpr.In (part : CExpr) (codes : List Code) : Prop :=
  ∃ code ∈ codes, ∃ tree ∈ code.trees, part.Within tree

namespace CExpr

variable {part tree outer one two : CExpr} {codes more : List Code}

theorem Within.first {others : List CExpr} (parts : outer.parts = tree :: others)
    (within : part.Within tree) : part.Within outer :=
  .part (parts ▸ List.mem_cons_self) within

theorem Within.second {others : List CExpr} (parts : outer.parts = one :: tree :: others)
    (within : part.Within tree) : part.Within outer :=
  .part (parts ▸ List.mem_cons_of_mem _ List.mem_cons_self) within

theorem Within.third {others : List CExpr} (parts : outer.parts = one :: two :: tree :: others)
    (within : part.Within tree) : part.Within outer :=
  .part (parts ▸ List.mem_cons_of_mem _ (List.mem_cons_of_mem _ List.mem_cons_self)) within

theorem Within.single (within : part.Within tree) : part.In [.expression tree] :=
  ⟨_, List.mem_singleton_self _, tree, List.mem_singleton_self _, within⟩

theorem In.mono (here : part.In codes) (subset : codes ⊆ more) : part.In more := by
  obtain ⟨code, member, found⟩ := here
  exact ⟨code, subset member, found⟩

end CExpr

/-! ## Parts without a text -/

namespace Ir

open Emit

/-- What stands in those operands of a part that have no text in the file. -/
def Part.unwritten (types : Types) : Part → List Part
  | .expr (.member _ object _) =>
    match typeOf types object with
    | .array _ _ false => object.parts
    | _ => []
  | .stmt (.switchOn _ discriminant list) =>
    if types discriminant.id = some .number ∨ ∃ clause ∈ list, clause.test.isSome then []
    else discriminant.parts
  | .stmt (.expression _ (.assign _ none target (.array _ []))) => target.parts
  | .stmt (.forOf _ (.declare d) _ _) => partsOf d.init
  | .stmt (.forIn _ (.declare d) _ _) => partsOf d.init
  | _ => []

/-- The parts that have no text in the file. -/
def unwritten (types : Types) (parts : List Part) : List Part :=
  parts.flatMap (Part.unwritten types)

end Ir

namespace Emit

variable {types : Types} {parts : List Part} {node : Node} {op : Option BinaryOp}
  {target value : Expr}

/-- What stands in an operand without a text of one of the parts has none. -/
theorem not_mem_unwritten {part inner : Part} (written : inner ∉ unwritten types parts)
    (isPart : part ∈ parts) : inner ∉ part.unwritten types :=
  fun found => written (List.mem_flatMap_of_mem isPart found)

/-- If something in the object of a member has a text, the member is no fixed length. -/
theorem not_fixed_of_written {inner : Part} {node : Node} {object : Expr} {property : String}
    (written : inner ∉ unwritten types parts)
    (isPart : .expr (.member node object property) ∈ parts) (stands : inner ∈ object.parts)
    (element : CType) (capacity : Nat) :
    typeOf types object ≠ .array element capacity false := by
  intro fixed
  have absent := not_mem_unwritten written isPart
  rw [Part.unwritten, fixed] at absent
  exact absent stands

/-- No assignment stands in a name. -/
theorem not_mem_of_ident? {node : Node} {op : Option BinaryOp} {target value : Expr} :
    ∀ {e : Expr} {name : String}, e.ident? = some name →
      .expr (.assign node op target value) ∉ e.parts
  | .ident .., _, _ => by simp [Expr.parts]
  | .paren _ inner, name, named => by
      rw [Expr.parts, List.mem_cons, not_or]
      exact ⟨nofun, not_mem_of_ident? (e := inner) named⟩

/-- No assignment stands in the name of a field. -/
theorem noName_of_mem {node : Node} {op : Option BinaryOp} {target value key : Expr}
    (stands : .expr (.assign node op target value) ∈ key.parts) (other : Node) (name : String) :
    key ≠ .string other name := by
  rintro rfl
  simp [Expr.parts] at stands

section Shapes

variable {part tree keyTree : CExpr}

theorem within_conditionTree (e : Expr) (within : part.Within tree) :
    part.Within (conditionTree types e tree) := by
  unfold conditionTree
  split
  · split
    · exact .first rfl within
    · exact .first rfl (.first rfl within)
  · exact within

/-- The object of a member stands in its tree, unless the member is a fixed length. -/
theorem within_memberTree {object : Expr} {property : String}
    (written : ∀ element capacity, typeOf types object ≠ .array element capacity false)
    (within : part.Within tree) : part.Within (memberTree types object property tree) := by
  unfold memberTree
  split
  next element capacity dynamic type =>
    cases dynamic with
    | true => exact .first rfl within
    | false => exact absurd type (written element capacity)
  · exact .second rfl within
  · exact .second rfl within
  · exact .first rfl within

theorem within_indexTree_object (object key : Expr) (within : part.Within tree) :
    part.Within (indexTree types object key tree keyTree) := by
  unfold indexTree
  split
  · exact .first rfl (.first rfl within)
  · exact .first rfl within
  · exact .first rfl within
  · exact .second rfl within

/-- The key stands in the tree of an element, unless it is the name of a field. -/
theorem within_indexTree_key {object key : Expr} (noName : ∀ node name, key ≠ .string node name)
    (within : part.Within keyTree) : part.Within (indexTree types object key tree keyTree) := by
  unfold indexTree
  split
  · exact .second rfl within
  · exact .second rfl within
  · exact absurd rfl (noName _ _)
  · exact .third rfl within

theorem within_printTree {args : List Expr} {arg : Expr} (isArg : arg ∈ args)
    (within : part.Within (exprTree types arg)) :
    part.Within (printTree types args (exprTrees types args)) := by
  have printed : part.Within (printedTree types arg (exprTree types arg)) := by
    unfold printedTree
    split
    · exact .first rfl within
    · exact within
  refine .part (List.mem_cons_of_mem _ (List.mem_cons_of_mem _ ?_)) printed
  rw [exprTrees_eq_map, List.zipWith_map_right, List.zipWith_self]
  exact List.mem_map_of_mem isArg

theorem within_binaryTree {op : BinaryOp} {lhs rhs : Expr}
    (within : part.Within tree ∨ part.Within keyTree) :
    part.Within (binaryTree types op lhs rhs tree keyTree) := by
  unfold binaryTree
  split
  · refine .first rfl ?_
    rcases within with left | right
    · exact .second rfl left
    · exact .third rfl right
  · rcases within with left | right
    · exact .first rfl left
    · exact .second rfl right

end Shapes

/-! ## Expressions -/

/-- The tree of an assignment. -/
def assignTree (types : Types) (op : Option BinaryOp) (target value : Expr) : CExpr :=
  .assign op (placeTree types target) (exprTree types value)

section Expressions

variable (written : .expr (.assign node op target value) ∉ unwritten types parts)

include written

mutual

/-- An assignment in an expression stands in its tree, unless it has no text there. -/
theorem Emittable.within : ∀ {e : Expr}, Emittable types e → e.parts ⊆ parts →
    .expr (.assign node op target value) ∈ e.parts →
      (assignTree types op target value).Within (exprTree types e)
  | .paren _ inner, .paren part, inside, stands => by
      rw [Expr.parts, List.cons_subset] at inside
      rcases List.mem_cons.1 stands with ⟨⟨⟩⟩ | stands
      rw [exprTree]
      exact .first rfl (part.within inside.2 stands)
  | .member _ object property, .member part, inside, stands => by
      rw [Expr.parts, List.cons_subset] at inside
      rcases List.mem_cons.1 stands with ⟨⟨⟩⟩ | stands
      rw [exprTree]
      exact within_memberTree (not_fixed_of_written written inside.1 stands)
        (part.within inside.2 stands)
  | .index _ object key, .index part keyPart, inside, stands => by
      rw [Expr.parts, List.cons_subset, List.append_subset] at inside
      rcases List.mem_cons.1 stands with ⟨⟨⟩⟩ | stands
      rw [exprTree]
      rcases List.mem_append.1 stands with stands | stands
      · exact within_indexTree_object object key (part.within inside.2.1 stands)
      · exact within_indexTree_key (noName_of_mem stands) (keyPart.within inside.2.2 stands)
  | .call _ (.member _ object _) args, .print isConsole each, inside, stands => by
      rw [Expr.parts, List.cons_subset, List.append_subset] at inside
      rw [exprTree, if_pos ⟨isConsole, rfl⟩]
      rcases List.mem_cons.1 stands with ⟨⟨⟩⟩ | stands
      rcases List.mem_append.1 stands with stands | stands
      · rcases List.mem_cons.1 stands with ⟨⟨⟩⟩ | stands
        exact absurd stands (not_mem_of_ident? isConsole)
      · obtain ⟨arg, isArg, stands⟩ := mem_listParts stands
        exact within_printTree isArg ((each arg isArg).within
          (List.Subset.trans (parts_subset_listParts isArg) inside.2.2) stands)
  | .call _ (.member _ object _) args, .method isMethod _ part each, inside, stands => by
      rw [Expr.parts, Expr.parts, List.cons_subset, List.append_subset, List.cons_subset] at inside
      rw [exprTree, if_neg isMethod, exprTrees_eq_map]
      rcases List.mem_cons.1 stands with ⟨⟨⟩⟩ | stands
      rcases List.mem_append.1 stands with stands | stands
      · rcases List.mem_cons.1 stands with ⟨⟨⟩⟩ | stands
        exact .second rfl (part.within inside.2.1.2 stands)
      · obtain ⟨arg, isArg, stands⟩ := mem_listParts stands
        exact .part (List.mem_cons_of_mem _ (List.mem_cons_of_mem _ (List.mem_map_of_mem isArg)))
          ((each arg isArg).within (List.Subset.trans (parts_subset_listParts isArg) inside.2.2)
            stands)
  | .call _ callee args, .call named each, inside, stands => by
      rw [Expr.parts, List.cons_subset, List.append_subset] at inside
      rw [exprTree_call named, exprTrees_eq_map]
      rcases List.mem_cons.1 stands with ⟨⟨⟩⟩ | stands
      rcases List.mem_append.1 stands with stands | stands
      · exact absurd stands (not_mem_of_ident? named)
      · obtain ⟨arg, isArg, stands⟩ := mem_listParts stands
        exact .part (List.mem_cons_of_mem _ (List.mem_map_of_mem isArg)) ((each arg isArg).within
          (List.Subset.trans (parts_subset_listParts isArg) inside.2.2) stands)
  | .unary _ op arg, .unary part, inside, stands => by
      rw [Expr.parts, List.cons_subset] at inside
      rcases List.mem_cons.1 stands with ⟨⟨⟩⟩ | stands
      have within := part.within inside.2 stands
      cases op with
      | not =>
          rw [exprTree]
          exact .first rfl (within_conditionTree arg within)
      | _ =>
          rw [exprTree]
          · exact .first rfl within
          · nofun
  | .update .., .update place, inside, stands => by
      rw [Expr.parts, List.cons_subset] at inside
      rcases List.mem_cons.1 stands with ⟨⟨⟩⟩ | stands
      rw [exprTree]
      split <;> exact .first rfl (place.within inside.2 stands)
  | .binary .., .binary _ left right, inside, stands => by
      rw [Expr.parts, List.cons_subset, List.append_subset] at inside
      rcases List.mem_cons.1 stands with ⟨⟨⟩⟩ | stands
      rw [exprTree]
      rcases List.mem_append.1 stands with stands | stands
      · exact within_binaryTree (.inl (left.within inside.2.1 stands))
      · exact within_binaryTree (.inr (right.within inside.2.2 stands))
  | .logical _ _ lhs rhs, .logical left right, inside, stands => by
      rw [Expr.parts, List.cons_subset, List.append_subset] at inside
      rcases List.mem_cons.1 stands with ⟨⟨⟩⟩ | stands
      rw [exprTree]
      rcases List.mem_append.1 stands with stands | stands
      · exact .first rfl (within_conditionTree lhs (left.within inside.2.1 stands))
      · exact .second rfl (within_conditionTree rhs (right.within inside.2.2 stands))
  | .assign .., .assign place part, inside, stands => by
      rw [Expr.parts, List.cons_subset, List.append_subset] at inside
      rcases List.mem_cons.1 stands with same | stands
      · cases same
        rw [exprTree]
        exact .here
      rw [exprTree]
      rcases List.mem_append.1 stands with stands | stands
      · exact .first rfl (place.within inside.2.1 stands)
      · exact .second rfl (part.within inside.2.2 stands)
  | .conditional _ test _ _, .conditional first second third, inside, stands => by
      rw [Expr.parts, List.cons_subset, List.append_subset, List.append_subset] at inside
      obtain ⟨-, ⟨inTest, inYes⟩, inNo⟩ := inside
      rcases List.mem_cons.1 stands with ⟨⟨⟩⟩ | stands
      rw [exprTree]
      rcases List.mem_append.1 stands with stands | stands
      · rcases List.mem_append.1 stands with stands | stands
        · exact .first rfl (within_conditionTree test (first.within inTest stands))
        · exact .second rfl (second.within inYes stands)
      · exact .third rfl (third.within inNo stands)

/-- An assignment in a place stands in its tree, unless it has no text there. -/
theorem EmittablePlace.within : ∀ {e : Expr}, EmittablePlace types e → e.parts ⊆ parts →
    .expr (.assign node op target value) ∈ e.parts →
      (assignTree types op target value).Within (placeTree types e)
  | .paren _ inner, .paren part, inside, stands => by
      rw [Expr.parts, List.cons_subset] at inside
      rcases List.mem_cons.1 stands with ⟨⟨⟩⟩ | stands
      rw [placeTree]
      exact part.within inside.2 stands
  | .member _ object property, .member part, inside, stands => by
      rw [Expr.parts, List.cons_subset] at inside
      rcases List.mem_cons.1 stands with ⟨⟨⟩⟩ | stands
      rw [placeTree]
      exact within_memberTree (not_fixed_of_written written inside.1 stands)
        (part.within inside.2 stands)
  | .index _ object key, .index part keyPart, inside, stands => by
      rw [Expr.parts, List.cons_subset, List.append_subset] at inside
      rcases List.mem_cons.1 stands with ⟨⟨⟩⟩ | stands
      rw [placeTree]
      rcases List.mem_append.1 stands with stands | stands
      · exact within_indexTree_object object key (part.within inside.2.1 stands)
      · exact within_indexTree_key (noName_of_mem stands) (keyPart.within inside.2.2 stands)

end

end Expressions

/-! ## Assigned values -/

theorem assignmentCodes_of_plain (place : CExpr) (type : Option CType) {e : Expr}
    (plain : e.isLiteral = false) :
    assignmentCodes types place type e = [.expression (.assign none place (exprTree types e))] := by
  unfold assignmentCodes
  split
  · cases plain
  · cases plain
  · rfl

/-- A literal is assigned to a place that takes it. -/
theorem takes_of_assignment (target : String) (type : Option CType) (e : Expr) :
    Gives (assignment types target type e) fun _ =>
      e.isLiteral = true → ∃ found ∈ type, found.takes e = true := by
  intro _ _ _ run isLiteral
  rcases assignable_assignment target type e run with plain | ⟨-, takes⟩
  · rw [(plain e e.expr_mem_parts).1] at isLiteral
    cases isLiteral
  · exact takes

/-- The place that is assigned to stands in the codes, unless it gets an array without elements. -/
theorem place_in_assignmentCodes {part place : CExpr} (within : part.Within place)
    (type : Option CType) {e : Expr} (notEmpty : ∀ node, e ≠ .array node []) :
    part.In (assignmentCodes types place type e) := by
  unfold assignmentCodes
  split
  next node elements element _ dynamic =>
    unfold arrayCodes
    cases dynamic with
    | true =>
      refine ⟨_, List.mem_cons_self, _, List.mem_singleton_self _, ?_⟩
      exact .second rfl within
    | false =>
      cases elements with
      | nil => exact absurd rfl (notEmpty node)
      | cons first rest =>
        exact ⟨_, List.mem_cons_self, _, List.mem_cons_self, .first rfl within⟩
  next =>
    refine ⟨_, List.mem_cons_self, _, List.mem_singleton_self _, ?_⟩
    exact .second rfl within
  next => exact CExpr.Within.single (.first rfl within)

section Values

variable (written : .expr (.assign node op target value) ∉ unwritten types parts)

include written

/-- An assignment in a value that is assigned stands in the codes. -/
theorem EmittableValue.in_assignmentCodes {type : Option CType} {e : Expr}
    (given : EmittableValue types e)
    (takes : e.isLiteral = true → ∃ found ∈ type, found.takes e = true) (place : CExpr)
    (inside : e.parts ⊆ parts) (stands : .expr (.assign node op target value) ∈ e.parts) :
    (assignTree types op target value).In (assignmentCodes types place type e) := by
  cases isLiteral : e.isLiteral with
  | false =>
    rw [assignmentCodes_of_plain place type isLiteral]
    have within := (given.whole isLiteral).within written inside stands
    exact CExpr.Within.single (.second rfl within)
  | true =>
    obtain ⟨found, rfl, taken⟩ := takes isLiteral
    obtain ⟨_, elements, element, _, dynamic, rfl, rfl⟩ | ⟨_, properties, element, rfl, rfl⟩ :=
      CType.exists_of_takes taken
    · rw [Expr.parts, List.cons_subset] at inside
      rcases List.mem_cons.1 stands with ⟨⟨⟩⟩ | stands
      obtain ⟨e, isElement, stands⟩ := mem_listParts stands
      have within := (given.contents e isElement).within written
        (List.Subset.trans (parts_subset_listParts isElement) inside.2) stands
      rw [← List.zipIdx_map_fst 0 elements] at isElement
      obtain ⟨entry, isEntry, rfl⟩ := List.mem_map.1 isElement
      have stored : Code.store (.index (if dynamic then .arrow place "data" else place)
          (.number (toString entry.2))) (if element.isArray then "(void *)" else "")
          (exprTree types entry.1) ∈ arrayCodes types place element dynamic elements := by
        cases dynamic with
        | true => exact List.mem_cons_of_mem _ (List.mem_map_of_mem isEntry)
        | false => exact List.mem_map_of_mem isEntry
      exact ⟨_, stored, _, List.mem_cons_of_mem _ (List.mem_singleton_self _), within⟩
    · rw [Expr.parts, List.cons_subset] at inside
      rcases List.mem_cons.1 stands with ⟨⟨⟩⟩ | stands
      obtain ⟨property, isProperty, stands⟩ := mem_propertyParts stands
      have within := (given.contents property.2 (List.mem_map_of_mem isProperty)).within written
        (List.Subset.trans (parts_subset_propertyParts isProperty) inside.2) stands
      refine ⟨_, List.mem_cons_of_mem _ (List.mem_map_of_mem isProperty), _,
        List.mem_singleton_self _, ?_⟩
      exact .part (List.mem_cons_of_mem _ (List.mem_cons_of_mem _ (List.mem_cons_of_mem _
        (List.mem_singleton_self _)))) within

end Values

/-! ## Parts of statements -/

/-- An assignment stands in the codes, in an expression or as a statement of its own. -/
def AssignsIn (types : Types) (op : Option BinaryOp) (target value : Expr) (codes : List Code) :
    Prop :=
  (assignTree types op target value).In codes ∨
    (op = none ∧ assignmentCodes types (placeTree types target) (types target.id) value ⊆ codes)

theorem AssignsIn.mono {codes more : List Code} (assigns : AssignsIn types op target value codes)
    (subset : codes ⊆ more) : AssignsIn types op target value more := by
  rcases assigns with inExpression | ⟨plain, statement⟩
  · exact .inl (inExpression.mono subset)
  · exact .inr ⟨plain, List.Subset.trans statement subset⟩

section Parts

variable {σ : Setting} {scope : ScopeId} {w w' : Workspace}
  (written : .expr (.assign node op target value) ∉ unwritten σ.types parts)

include written

theorem in_of_run {e : Expr} {text : String} (run : expr (exprText · e) σ w = (.ok text, w'))
    (inside : e.parts ⊆ parts) (stands : .expr (.assign node op target value) ∈ e.parts) :
    (assignTree σ.types op target value).In [.expression (exprTree σ.types e)] :=
  ((of_expr run (emittable_exprText e)).within written inside stands).single

theorem in_of_condition {e : Expr} {text : String}
    (run : expr (condition · e) σ w = (.ok text, w')) (inside : e.parts ⊆ parts)
    (stands : .expr (.assign node op target value) ∈ e.parts) :
    (assignTree σ.types op target value).In [conditionCode σ.types e] :=
  (within_conditionTree e
    ((of_expr run (emittable_condition e)).within written inside stands)).single

omit written in
/-- An expression that may be left out. -/
theorem in_of_part {part : Option Expr} {result : Option String}
    {action : Expr → Types → ExprM String} {code : Expr → Code}
    (each : ∀ {e w w' text}, expr (action e) σ w = (.ok text, w') → e.parts ⊆ parts →
      .expr (.assign node op target value) ∈ e.parts →
        (assignTree σ.types op target value).In [code e])
    (run : part.mapM (fun e => expr (action e)) σ w = (.ok result, w'))
    (inside : partsOf part ⊆ parts)
    (stands : .expr (.assign node op target value) ∈ partsOf part) :
    (assignTree σ.types op target value).In [part.elim .absent code] := by
  rcases mapM_option_ok.1 run with ⟨rfl, -, -⟩ | ⟨e, _, rfl, -, first⟩
  · cases stands
  · exact each first inside stands

theorem in_declarations : ∀ {declarators : List Declarator} {w w' : Workspace}
    {list : List Assignment}, declarations scope declarators σ w = (.ok list, w') →
      declarators.flatMap Declarator.parts ⊆ parts →
      .expr (.assign node op target value) ∈ declarators.flatMap Declarator.parts →
      (assignTree σ.types op target value).In (declaredCodes σ.types declarators)
  | declarator :: rest, _, _, _, run, inside, stands => by
      rw [List.flatMap_cons, List.append_subset, Declarator.parts, List.cons_subset] at inside
      simp only [declarations, bind_ok, typeOfNode_ok, pure_ok] at run
      obtain ⟨type, _, ⟨known, rfl⟩, _, _, -, first, _, given, _, _, run, -, -⟩ := run
      rw [declaredCodes, List.flatMap_cons]
      rw [List.flatMap_cons, Declarator.parts] at stands
      rcases List.mem_append.1 stands with stands | stands
      · rcases List.mem_cons.1 stands with ⟨⟨⟩⟩ | stands
        refine CExpr.In.mono ?_ (List.subset_append_left _ _)
        rcases mapM_option_ok.1 given with ⟨none, -, -⟩ | ⟨e, a, some, -, run⟩
        · rw [none] at stands
          cases stands
        · rw [some] at stands inside ⊢
          have value := of_expr run (emittable_assignment declarator.name _ e)
          have takes := of_expr run (takes_of_assignment declarator.name _ e)
          rw [known]
          exact value.in_assignmentCodes written takes _ inside.1.2 stands
      · exact (in_declarations run inside.2 stands).mono (List.subset_append_right _ _)

/-- The assignments in an expression statement, and the statement itself if it is one. -/
theorem assigns_statement {own : Node} {e : Expr} {a : Assignment}
    (run : expressionStatement e σ w = (.ok a, w'))
    (inside : (Stmt.expression own e).parts ⊆ parts)
    (stands : .expr (.assign node op target value) ∈ e.parts) :
    AssignsIn σ.types op target value (statementCodes σ.types e) := by
  rw [Stmt.parts, List.cons_subset] at inside
  unfold expressionStatement at run
  split at run
  next inner place new =>
    rw [Expr.parts, List.cons_subset, List.append_subset] at inside
    obtain ⟨isPart, -, inPlace, inNew⟩ := inside
    simp only [bind_ok, read_bind] at run
    obtain ⟨text, _, first, run⟩ := run
    rcases List.mem_cons.1 stands with same | stands
    · cases same
      exact .inr ⟨rfl, List.Subset.refl _⟩
    left
    rcases List.mem_append.1 stands with inTarget | stands
    · have within := (of_expr first (emittable_placeText place)).within written inPlace inTarget
      refine place_in_assignmentCodes within _ ?_
      rintro _ rfl
      exact not_mem_unwritten written isPart inTarget
    · have given := of_expr run (emittable_assignment text _ new)
      have takes := of_expr run (takes_of_assignment text _ new)
      exact given.in_assignmentCodes written takes _ inNew stands
  next plain =>
    simp only [bind_ok, pure_ok] at run
    obtain ⟨text, _, run, -, -⟩ := run
    unfold statementCodes
    split
    next => exact absurd rfl (plain _ _ _)
    next => exact .inl (in_of_run written run inside.2 stands)

theorem in_loopHead {id : NodeId} {left : ForBinding} {right : Expr}
    {found : String × String × String}
    (run : loopHead scope id left right σ w = (.ok found, w')) (inside : right.parts ⊆ parts)
    (inside' : left.parts ⊆ parts)
    (absent : ∀ d, left = .declare d → .expr (.assign node op target value) ∉ partsOf d.init)
    (stands : .expr (.assign node op target value) ∈ right.parts ++ left.parts) :
    (assignTree σ.types op target value).In
      [.expression (exprTree σ.types right), bindingCode σ.types left] := by
  simp only [loopHead, bind_ok, pure_ok] at run
  obtain ⟨_, _, -, _, _, -, _, _, read, _, _, bound, -, -⟩ := run
  rcases List.mem_append.1 stands with stands | stands
  · exact (in_of_run written read inside stands).mono (by simp)
  · cases left with
    | declare declarator =>
      rcases List.mem_cons.1 stands with ⟨⟨⟩⟩ | stands
      exact absurd stands (absent declarator rfl)
    | target e =>
      rw [binding] at bound
      have within := (of_expr bound (emittable_placeText e)).within written inside' stands
      exact within.single.mono (List.subset_cons_self _ _)

theorem in_loopStart {init : Option ForInit} {found : Option (List Assignment) × String}
    (run : loopStart scope init σ w = (.ok found, w')) (inside : startParts init ⊆ parts)
    (stands : .expr (.assign node op target value) ∈ startParts init) :
    (assignTree σ.types op target value).In (startCodes σ.types init) := by
  match init with
  | some (.declare declarators) =>
    simp only [loopStart, bind_ok, pure_ok] at run
    obtain ⟨list, _, declares, -, -⟩ := run
    exact (in_declarations written declares inside stands).mono (List.subset_append_left _ _)
  | some (.evaluate e) =>
    simp only [loopStart, bind_ok, pure_ok] at run
    obtain ⟨text, _, read, -, -⟩ := run
    exact in_of_run written read inside stands
  | none => cases stands

end Parts

/-! ## Statements -/

/-- A test stands in the comparisons, and so does the discriminant if there is a test. -/
theorem mem_comparisonCodes {types : Types} {discriminant test : Expr} {body : List Stmt} :
    ∀ {list : List (Clause Stmt)} (index : Nat), ⟨some test, body⟩ ∈ list → ∃ found,
      Code.comparison (.before (.unary .not) (.call (.name "strcmp")
        [exprTree types discriminant, exprTree types test])) found ∈
          comparisonCodes types discriminant index list
  | ⟨first, _⟩ :: rest, index, member => by
      rcases List.mem_cons.1 member with same | member
      · cases same
        exact ⟨index, List.mem_append_left _ (List.mem_singleton_self _)⟩
      · obtain ⟨found, isCode⟩ := mem_comparisonCodes (index + 1) member
        exact ⟨found, List.mem_append_right _ isCode⟩

variable {σ : Setting}

mutual

/-- Every assignment in a statement stands in its codes, unless it has no text there. -/
theorem Emits.assigns
    (written : .expr (.assign node op target value) ∉ unwritten σ.types parts) :
    ∀ {scope : ScopeId} {s : Stmt} {w w' : Workspace} {c : CStmt} {xs : List Variable},
    Emits σ scope s w c xs w' → s.parts ⊆ parts →
      .expr (.assign node op target value) ∈ s.parts →
        AssignsIn σ.types op target value (s.codes σ.types)
  | _, _, _, _, _, _, .breakStmt .., _, stands | _, _, _, _, _, _, .continueStmt .., _, stands
  | _, _, _, _, _, _, .emptyStmt .., _, stands | _, _, _, _, _, _, .importFrom _, _, stands => by
      simp [Stmt.parts] at stands
  | _, _, _, _, _, _, .returnStmt run, inside, stands => by
      rw [Stmt.parts, List.cons_subset] at inside
      rcases List.mem_cons.1 stands with ⟨⟨⟩⟩ | stands
      simp only [returned, bind_ok] at run
      obtain ⟨_, _, read, -⟩ := run
      rcases mapM_option_ok.1 read with ⟨rfl, -, -⟩ | ⟨e, _, rfl, -, run⟩
      · cases stands
      · exact .inl (in_of_run written run inside.2 stands)
  | _, _, _, _, _, _, .ifThen head yes, inside, stands => by
      rw [Stmt.parts, List.cons_subset, List.append_subset] at inside
      rcases List.mem_cons.1 stands with ⟨⟨⟩⟩ | stands
      rw [Stmt.codes]
      rcases List.mem_append.1 stands with stands | stands
      · exact .inl ((in_of_condition written head inside.2.1 stands).mono (by simp))
      · exact (yes.assigns written (rowParts_subset inside.2.2)
          (expr_mem_bodyParts.1 stands)).mono (List.subset_cons_self _ _)
  | _, _, _, _, _, _, .ifElse head yes no, inside, stands => by
      rw [Stmt.parts, List.cons_subset, List.append_subset, List.append_subset] at inside
      obtain ⟨-, ⟨test, body⟩, otherwise⟩ := inside
      rcases List.mem_cons.1 stands with ⟨⟨⟩⟩ | stands
      rw [Stmt.codes]
      rcases List.mem_append.1 stands with stands | stands
      · rcases List.mem_append.1 stands with stands | stands
        · exact .inl ((in_of_condition written head test stands).mono (by simp))
        · exact (yes.assigns written (rowParts_subset body)
            (expr_mem_bodyParts.1 stands)).mono (by simp)
      · exact (no.assigns written (rowParts_subset otherwise)
          (expr_mem_bodyParts.1 stands)).mono (by simp)
  | _, .switchOn _ discriminant list, _, _, _, _, .switchOn head each, inside, stands => by
      rw [Stmt.parts, List.cons_subset, List.append_subset] at inside
      obtain ⟨isPart, inDiscriminant, clauses⟩ := inside
      rcases List.mem_cons.1 stands with ⟨⟨⟩⟩ | stands
      obtain ⟨text, _, read, selected⟩ := selection_ok head
      have assigned : .expr (.assign node op target value) ∈ clauseParts list →
          AssignsIn σ.types op target value _ := each.assigns written discriminant clauses
      have here : .expr (.assign node op target value) ∈ discriminant.parts →
          (assignTree σ.types op target value).Within (exprTree σ.types discriminant) :=
        (of_expr read (emittable_exprText discriminant)).within written inDiscriminant
      rw [Stmt.codes]
      rcases selected with ⟨isNumber, rfl⟩ | ⟨notNumber, _, rfl, -⟩
      · rw [if_pos isNumber]
        rcases List.mem_append.1 stands with stands | stands
        · exact .inl ((here stands).single.mono (by simp))
        · exact (assigned stands).mono (List.subset_cons_self _ _)
      · rw [if_neg notNumber]
        rcases List.mem_append.1 stands with stands | stands
        · have absent := not_mem_unwritten written isPart
          rw [Part.unwritten] at absent
          split at absent
          next known =>
            rcases known with isNumber | ⟨⟨test, body⟩, isClause, tested⟩
            · exact absurd (by rw [isNumber]; rfl) notNumber
            · obtain ⟨test, rfl⟩ := Option.isSome_iff_exists.1 tested
              obtain ⟨index, compared⟩ := mem_comparisonCodes 0 isClause
              refine .inl ⟨_, List.mem_append_left _ compared, _, List.mem_singleton_self _, ?_⟩
              exact .first rfl (.second rfl (here stands))
          next => exact absurd stands absent
        · exact assigned stands
  | _, _, _, _, _, _, .whileLoop head loop, inside, stands => by
      rw [Stmt.parts, List.cons_subset, List.append_subset] at inside
      rcases List.mem_cons.1 stands with ⟨⟨⟩⟩ | stands
      rw [Stmt.codes]
      rcases List.mem_append.1 stands with stands | stands
      · exact .inl ((in_of_condition written head inside.2.1 stands).mono (by simp))
      · exact (loop.assigns written (rowParts_subset inside.2.2)
          (expr_mem_bodyParts.1 stands)).mono (List.subset_cons_self _ _)
  | _, _, _, _, _, _, .doLoop loop last, inside, stands => by
      rw [Stmt.parts, List.cons_subset, List.append_subset] at inside
      rcases List.mem_cons.1 stands with ⟨⟨⟩⟩ | stands
      rw [Stmt.codes]
      rcases List.mem_append.1 stands with stands | stands
      · exact (loop.assigns written (rowParts_subset inside.2.1)
          (expr_mem_bodyParts.1 stands)).mono (List.subset_append_left _ _)
      · exact .inl ((in_of_condition written last inside.2.2 stands).mono
          (List.subset_append_right _ _))
  | _, _, _, _, _, _, .forLoop start head step loop, inside, stands => by
      rw [Stmt.parts, List.cons_subset, List.append_subset, List.append_subset,
        List.append_subset] at inside
      obtain ⟨-, ⟨⟨init, test⟩, update⟩, body⟩ := inside
      rcases List.mem_cons.1 stands with ⟨⟨⟩⟩ | stands
      rw [Stmt.codes]
      rcases List.mem_append.1 stands with stands | stands
      · rcases List.mem_append.1 stands with stands | stands
        · rcases List.mem_append.1 stands with stands | stands
          · exact .inl ((in_loopStart written start init stands).mono (by simp))
          · exact .inl ((in_of_part (in_of_condition written) head test stands).mono (by simp))
        · exact .inl ((in_of_part (in_of_run written) step update stands).mono (by simp))
      · exact (loop.assigns written (rowParts_subset body)
          (expr_mem_bodyParts.1 stands)).mono (List.subset_append_right _ _)
  | _, _, _, _, _, _, .forOf _ head loop, inside, stands => by
      rw [Stmt.parts, List.cons_subset, List.append_subset, List.append_subset] at inside
      obtain ⟨isPart, ⟨inRight, inLeft⟩, body⟩ := inside
      rcases List.mem_cons.1 stands with ⟨⟨⟩⟩ | stands
      rw [Stmt.codes]
      rcases List.mem_append.1 stands with stands | stands
      · refine .inl ((in_loopHead written head inRight inLeft ?_ stands).mono
          (List.subset_append_left _ _))
        rintro d rfl
        exact not_mem_unwritten written isPart
      · have row := loop.assigns written (by simpa [rowParts] using body)
          (by simpa [rowParts] using stands)
        rw [rowCodes, rowCodes, List.append_nil] at row
        exact row.mono (List.subset_append_right _ _)
  | _, _, _, _, _, _, .forIn _ _ head loop, inside, stands => by
      rw [Stmt.parts, List.cons_subset, List.append_subset, List.append_subset] at inside
      obtain ⟨isPart, ⟨inRight, inLeft⟩, body⟩ := inside
      rcases List.mem_cons.1 stands with ⟨⟨⟩⟩ | stands
      rw [Stmt.codes]
      rcases List.mem_append.1 stands with stands | stands
      · refine .inl ((in_loopHead written head inRight inLeft ?_ stands).mono
          (List.subset_append_left _ _))
        rintro d rfl
        exact not_mem_unwritten written isPart
      · exact (loop.assigns written (rowParts_subset body)
          (expr_mem_bodyParts.1 stands)).mono (List.subset_append_right _ _)
  | _, _, _, _, _, _, .expression run, inside, stands => by
      rcases List.mem_cons.1 stands with ⟨⟨⟩⟩ | stands
      exact assigns_statement written run inside stands
  | _, _, _, _, _, _, .block inner, inside, stands => by
      rw [Stmt.parts, List.cons_subset] at inside
      rcases List.mem_cons.1 stands with ⟨⟨⟩⟩ | stands
      exact inner.assigns written inside.2 stands
  | _, _, _, _, _, _, .declaration run, inside, stands => by
      rw [Stmt.parts, List.cons_subset] at inside
      rcases List.mem_cons.1 stands with ⟨⟨⟩⟩ | stands
      exact .inl (in_declarations written run inside.2 stands)

theorem EmitsAll.assigns
    (written : .expr (.assign node op target value) ∉ unwritten σ.types parts) :
    ∀ {scope : ScopeId} {body : List Stmt} {w w' : Workspace} {cs : List CStmt}
    {xs : List Variable}, EmitsAll σ scope body w cs xs w' →
      rowParts body ⊆ parts → .expr (.assign node op target value) ∈ rowParts body →
        AssignsIn σ.types op target value (rowCodes σ.types body)
  | _, _, _, _, _, _, .cons first others, inside, stands => by
      rw [rowParts, List.append_subset] at inside
      rcases List.mem_append.1 stands with stands | stands
      · exact (first.assigns written inside.1 stands).mono (List.subset_append_left _ _)
      · exact (others.assigns written inside.2 stands).mono (List.subset_append_right _ _)

theorem EmitsBlock.assigns
    (written : .expr (.assign node op target value) ∉ unwritten σ.types parts) :
    ∀ {scope : ScopeId} {body : List Stmt} {w w' : Workspace} {b : Block CStmt},
    EmitsBlock σ scope body w b w' → rowParts body ⊆ parts →
      .expr (.assign node op target value) ∈ rowParts body →
        AssignsIn σ.types op target value (rowCodes σ.types body)
  | _, _, _, _, _, .intro _ all _, inside, stands => all.assigns written inside stands

theorem EmitsHoisted.assigns
    (written : .expr (.assign node op target value) ∉ unwritten σ.types parts) :
    ∀ {scope : ScopeId} {body : List Stmt} {w w' : Workspace} {cs : List CStmt}
    {xs : List Variable}, EmitsHoisted σ scope body w cs xs w' →
      rowParts body ⊆ parts → .expr (.assign node op target value) ∈ rowParts body →
        AssignsIn σ.types op target value (rowCodes σ.types body)
  | _, _, _, _, _, _, .intro _ all _, inside, stands => all.assigns written inside stands

/-- The tests stand in the labels, or in the comparisons if clauses are found by their index. -/
theorem EmitsClauses.assigns
    (written : .expr (.assign node op target value) ∉ unwritten σ.types parts)
    (discriminant : Expr) : ∀ {scope : ScopeId} {select : Selection} {index : Nat}
    {list : List (Clause Stmt)} {w w' : Workspace} {comparisons : List String}
    {cases : List CStmt} {xs : List Variable},
    EmitsClauses σ scope select index list w comparisons cases xs w' →
      clauseParts list ⊆ parts → .expr (.assign node op target value) ∈ clauseParts list →
        AssignsIn σ.types op target value
          ((if select.byIndex then comparisonCodes σ.types discriminant index list else []) ++
            clauseCodes σ.types select.byIndex index list)
  | _, select, index, ⟨test, body⟩ :: rest, _, _, _, _, _, .cons head first others, inside,
      stands => by
      rw [clauseParts, List.append_subset, List.append_subset] at inside
      rw [clauseCodes]
      rcases List.mem_append.1 stands with stands | stands
      · rcases List.mem_append.1 stands with stands | stands
        · refine .inl ?_
          rcases mapM_option_ok.1 head with ⟨rfl, -, -⟩ | ⟨e, _, rfl, -, run⟩
          · cases stands
          rw [label, bind_ok] at run
          obtain ⟨_, _, read, -⟩ := run
          have within := (of_expr read (emittable_exprText e)).within written inside.1.1 stands
          cases select with
          | value => exact within.single.mono (by simp [Selection.byIndex, labelCode])
          | index =>
            refine ⟨_, List.mem_append_left _ (List.mem_append_left _ List.mem_cons_self), _,
              List.mem_singleton_self _, .first rfl ?_⟩
            exact .part (List.mem_cons_of_mem _ (List.mem_cons_of_mem _
              (List.mem_singleton_self _))) within
        · refine (first.assigns written inside.1.2 stands).mono ?_
          intro _ isCode
          exact List.mem_append_right _ (List.mem_append_left _ (List.mem_append_right _ isCode))
      · refine (others.assigns written discriminant inside.2 stands).mono ?_
        cases select with
        | value => exact List.subset_append_right _ _
        | index =>
          refine List.append_subset.2 ⟨fun _ isCode => ?_, fun _ isCode => ?_⟩
          · exact List.mem_append_left _ (List.mem_append_right _ isCode)
          · exact List.mem_append_right _ (List.mem_append_right _ isCode)

end

/-! ## Modules -/

theorem emits_of_functions : ∀ {list : List Function} {gs : List CFunction} {w w' : Workspace},
    functions list σ w = (.ok gs, w') → ∀ f ∈ list,
      ∃ scope opened closed cs xs, EmitsAll σ scope f.body opened cs xs closed
  | _ :: rest, _, _, _, run, f, member => by
      simp only [functions, bind_ok] at run
      obtain ⟨_, _, first, _, _, others, -⟩ := run
      rcases List.mem_cons.1 member with rfl | member
      · obtain ⟨_, _, _, -, all, -⟩ := emits_functionBody first
        exact ⟨_, _, _, _, _, all⟩
      · exact emits_of_functions others f member

/-- Each body of a module is emitted. -/
theorem emits_of_program {module : Module} {file : CProgram} {w w' : Workspace}
    (run : program module σ w = (.ok file, w')) : ∀ body ∈ module.bodies,
      ∃ scope opened closed cs xs, EmitsAll σ scope body opened cs xs closed := by
  simp only [program, bind_ok] at run
  obtain ⟨gs, _, each, main, _, last, -⟩ := run
  rw [Module.bodies]
  intro body member
  rcases List.mem_append.1 member with member | member
  · obtain ⟨f, isFunction, rfl⟩ := List.mem_map.1 member
    exact emits_of_functions each f isFunction
  · obtain rfl := List.mem_singleton.1 member
    obtain ⟨_, _, _, -, all, -⟩ := emits_functionBody last
    exact ⟨_, _, _, _, _, all⟩

/-- The parts of a body are parts of the module. -/
theorem rowParts_subset_parts {module : Module} {body : List Stmt} (isBody : body ∈ module.bodies) :
    rowParts body ⊆ module.parts := by
  rw [Module.bodies] at isBody
  rcases List.mem_append.1 isBody with member | member
  · obtain ⟨f, isFunction, rfl⟩ := List.mem_map.1 member
    refine fun part stands => List.mem_append_left _ (List.mem_flatMap_of_mem isFunction ?_)
    exact List.mem_cons_of_mem _ (List.mem_append_right _ stands)
  · obtain rfl := List.mem_singleton.1 member
    exact List.subset_append_right _ _

/-- Apart from the functions and their parameters, what is part of a module stands in a body. -/
theorem mem_bodies_of_mem_parts {module : Module} {part : Part} (isPart : part ∈ module.parts)
    (noFunction : ∀ f, part ≠ .function f) (noParam : ∀ p, part ≠ .param p) :
    ∃ body ∈ module.bodies, part ∈ rowParts body := by
  rcases List.mem_append.1 isPart with isPart | isPart
  · obtain ⟨f, isFunction, isPart⟩ := List.mem_flatMap.1 isPart
    rcases List.mem_cons.1 isPart with same | isPart
    · exact absurd same (noFunction f)
    rcases List.mem_append.1 isPart with isPart | isPart
    · obtain ⟨p, -, same⟩ := List.mem_map.1 isPart
      exact absurd same.symm (noParam p)
    · exact ⟨f.body, List.mem_append_left _ (List.mem_map_of_mem isFunction), isPart⟩
  · exact ⟨_, List.mem_append_right _ (List.mem_singleton_self _), isPart⟩

/-- **Assignments are emitted.** Every assignment of a module stands in the codes of the module,
unless it has no text there. -/
theorem program_assigns {module : Module} {file : CProgram} {w w' : Workspace}
    (run : program module σ w = (.ok file, w'))
    (isPart : .expr (.assign node op target value) ∈ module.parts)
    (written : .expr (.assign node op target value) ∉ unwritten σ.types module.parts) :
    AssignsIn σ.types op target value (module.codes σ.types) := by
  obtain ⟨body, isBody, stands⟩ := mem_bodies_of_mem_parts isPart nofun nofun
  obtain ⟨_, _, _, _, _, all⟩ := emits_of_program run body isBody
  exact (all.assigns written (rowParts_subset_parts isBody) stands).mono fun _ isCode =>
    List.mem_flatMap_of_mem isBody isCode

end Emit

end ScriptToC
