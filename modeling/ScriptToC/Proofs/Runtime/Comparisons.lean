import ScriptToC.Proofs.Emission.Emittable
import ScriptToC.Proofs.Runtime.Shown

/-!
# What is compared by `strcmp`

C compares strings by a call of `strcmp`. It is emitted for an equality of two strings, and for the
clauses of a `switch` whose discriminant is not known to be a number (`Compares`). Every call of
`strcmp` in what is emitted for a statement is one of these, or a call that the script makes itself
(`strcmp_compares`). Nothing is said of an equality of a string with a value of another type
(`Mixed`).

The discriminant and the tests of such a `switch` may have any type (`strcmp_compares_others`).
-/

set_option autoImplicit false

namespace ScriptToC

open Ir

theorem CType.isString_iff {type : CType} : type.isString = true ↔ type = .string := by
  cases type <;> simp [isString]

namespace Emit

/-- What a call of `strcmp` is made with that comes from some parts: two strings that an equality
compares; the discriminant of a `switch`, which is not known to be a number, and the test of one of
its clauses; or the arguments of a call of a function of that name. -/
inductive Compares (types : Types) (parts : List Part) : List CExpr → Prop
  | equality {node : Node} {op : BinaryOp} {lhs rhs : Expr}
      (isPart : .expr (.binary node op lhs rhs) ∈ parts) (isEquality : op = .eq ∨ op = .ne)
      (left : typeOf types lhs = .string) (right : typeOf types rhs = .string) :
      Compares types parts [exprTree types lhs, exprTree types rhs]
  | clause {node : Node} {discriminant test : Expr} {list : List (Clause Stmt)} {body : List Stmt}
      (isPart : .stmt (.switchOn node discriminant list) ∈ parts)
      (noNumber : types discriminant.id ≠ some .number) (isClause : ⟨some test, body⟩ ∈ list) :
      Compares types parts [exprTree types discriminant, exprTree types test]
  | own {node : Node} {callee : Expr} {args : List Expr}
      (isPart : .expr (.call node callee args) ∈ parts) (named : callee.ident? = some "strcmp") :
      Compares types parts (exprTrees types args)

/-- These are the sides of an equality of a string with a value of another type. -/
def Mixed (types : Types) (parts : List Part) (args : List CExpr) : Prop :=
  ∃ node op lhs rhs, .expr (.binary node op lhs rhs) ∈ parts ∧ (op = .eq ∨ op = .ne) ∧
    ¬ (typeOf types lhs = .string ↔ typeOf types rhs = .string) ∧
    args = [exprTree types lhs, exprTree types rhs]

/-- A call of `strcmp` in the tree comes from some parts, unless it is made with the sides of an
equality of a string with a value of another type. -/
def Comparing (types : Types) (parts : List Part) (tree : CExpr) : Prop :=
  tree.Every fun tree => ∀ args, tree = .call (.name "strcmp") args →
    ¬ Mixed types parts args → Compares types parts args

variable {types : Types} {parts : List Part} {tree keyTree : CExpr}

/-! ## Trees -/

/-- What is no call of `strcmp` itself compares what its parts do. -/
theorem comparing_of_parts (other : ∀ args, tree ≠ .call (.name "strcmp") args)
    (inside : ∀ part ∈ tree.parts, Comparing types parts part) : Comparing types parts tree :=
  .intro (fun args same _ => absurd same (other args)) inside

theorem comparing_name (text : String) : Comparing types parts (.name text) :=
  comparing_of_parts nofun nofun

theorem comparing_number (text : String) : Comparing types parts (.number text) :=
  comparing_of_parts nofun nofun

theorem comparing_literal (text : String) : Comparing types parts (.literal text) :=
  comparing_of_parts nofun nofun

/-- A call of another function compares what its arguments do. -/
theorem comparing_call {name : String} {args : List CExpr} (other : name ≠ "strcmp")
    (each : ∀ arg ∈ args, Comparing types parts arg) :
    Comparing types parts (.call (.name name) args) := by
  apply comparing_of_parts
  · rintro _ ⟨⟩
    exact other rfl
  · exact List.forall_mem_cons.2 ⟨comparing_name name, each⟩

theorem comparing_strcmp {args : List CExpr}
    (compares : ¬ Mixed types parts args → Compares types parts args)
    (each : ∀ arg ∈ args, Comparing types parts arg) :
    Comparing types parts (.call (.name "strcmp") args) := by
  refine .intro ?_ (List.forall_mem_cons.2 ⟨comparing_name "strcmp", each⟩)
  rintro _ ⟨⟩
  exact compares

namespace Comparing

variable (part : Comparing types parts tree)
include part

theorem paren : Comparing types parts (.paren tree) :=
  comparing_of_parts nofun (List.forall_mem_singleton.2 part)

theorem arrow (field : String) : Comparing types parts (.arrow tree field) :=
  comparing_of_parts nofun (List.forall_mem_singleton.2 part)

theorem before (op : OuterOp) : Comparing types parts (.before op tree) :=
  comparing_of_parts nofun (List.forall_mem_singleton.2 part)

theorem after (op : UpdateOp) : Comparing types parts (.after op tree) :=
  comparing_of_parts nofun (List.forall_mem_singleton.2 part)

theorem index (keyPart : Comparing types parts keyTree) :
    Comparing types parts (.index tree keyTree) :=
  comparing_of_parts nofun (by simpa [CExpr.parts] using ⟨part, keyPart⟩)

theorem between (op : InnerOp) (right : Comparing types parts keyTree) :
    Comparing types parts (.between op tree keyTree) :=
  comparing_of_parts nofun (by simpa [CExpr.parts] using ⟨part, right⟩)

theorem assign (op : Option BinaryOp) (value : Comparing types parts keyTree) :
    Comparing types parts (.assign op tree keyTree) :=
  comparing_of_parts nofun (by simpa [CExpr.parts] using ⟨part, value⟩)

theorem conditional {no : CExpr} (second : Comparing types parts keyTree)
    (third : Comparing types parts no) : Comparing types parts (.conditional tree keyTree no) :=
  comparing_of_parts nofun (by simpa [CExpr.parts] using ⟨part, second, third⟩)

/-! ## The shapes of C text -/

theorem conditionTree (e : Expr) : Comparing types parts (conditionTree types e tree) := by
  unfold Emit.conditionTree
  split
  · split
    · exact part.before .deref
    · exact part.paren.before .deref
  · exact part

theorem memberTree (object : Expr) (property : String) :
    Comparing types parts (memberTree types object property tree) := by
  unfold Emit.memberTree
  split
  · split
    · exact part.arrow "size"
    · exact comparing_number _
  · exact comparing_call (by decide) (List.forall_mem_singleton.2 part)
  · refine comparing_call (by decide) (List.forall_mem_cons.2 ⟨part, ?_⟩)
    exact List.forall_mem_singleton.2 (comparing_literal _)
  · exact part.arrow property

theorem indexTree (object key : Expr) (keyPart : Comparing types parts keyTree) :
    Comparing types parts (indexTree types object key tree keyTree) := by
  unfold Emit.indexTree
  split
  · exact (part.arrow "data").index keyPart
  · exact part.index keyPart
  · exact part.arrow _
  · exact comparing_call (by decide) (by simpa using ⟨part, keyPart⟩)

theorem printedTree (arg : Expr) : Comparing types parts (printedTree types arg tree) := by
  unfold Emit.printedTree
  split
  · exact part.conditional (comparing_literal _) (comparing_literal _)
  · exact part

theorem methodTree (name : String) {args : List CExpr}
    (each : ∀ arg ∈ args, Comparing types parts arg) :
    Comparing types parts (methodTree name tree args) := by
  refine comparing_call ?_ (List.forall_mem_cons.2 ⟨part, each⟩)
  split <;> decide

end Comparing

theorem comparing_printTree {args : List Expr}
    (each : ∀ arg ∈ args, Comparing types parts (exprTree types arg)) :
    Comparing types parts (printTree types args (exprTrees types args)) := by
  refine comparing_call (by decide) (List.forall_mem_cons.2 ⟨comparing_literal _, ?_⟩)
  rw [exprTrees_eq_map, List.zipWith_map_right, List.zipWith_self]
  intro arg member
  obtain ⟨e, isArg, rfl⟩ := List.mem_map.1 member
  exact (each e isArg).printedTree e

/-- An equality with a string is a call of `strcmp`, and its sides are two strings or mixed. -/
theorem comparing_binaryTree {node : Node} {op : BinaryOp} {lhs rhs : Expr}
    (isPart : .expr (.binary node op lhs rhs) ∈ parts)
    (allowed : (typeOf types lhs).isString || (typeOf types rhs).isString → op = .eq ∨ op = .ne)
    (left : Comparing types parts (exprTree types lhs))
    (right : Comparing types parts (exprTree types rhs)) :
    Comparing types parts
      (binaryTree types op lhs rhs (exprTree types lhs) (exprTree types rhs)) := by
  unfold binaryTree
  split
  next isString =>
    refine Comparing.between ?_ _ (comparing_number "0")
    refine comparing_strcmp (fun unmixed => ?_) (by simpa using ⟨left, right⟩)
    have same : typeOf types lhs = .string ↔ typeOf types rhs = .string := by
      by_contra differ
      exact unmixed ⟨node, op, lhs, rhs, isPart, allowed isString, differ, rfl⟩
    have either : typeOf types lhs = .string ∨ typeOf types rhs = .string := by
      simpa [CType.isString_iff] using isString
    rcases either with isLeft | isRight
    · exact .equality isPart (allowed isString) isLeft (same.1 isLeft)
    · exact .equality isPart (allowed isString) (same.2 isRight) isRight
  next => exact left.between _ right

/-! ## Expressions -/

mutual

/-- What the tree of an expression compares comes from the parts of the expression. -/
theorem Emittable.comparing : ∀ {e : Expr}, Emittable types e → e.parts ⊆ parts →
    Comparing types parts (exprTree types e)
  | _, .number .., _ => comparing_number _
  | _, .string .., _ => comparing_literal _
  | _, .bool .., _ => comparing_number _
  | _, .null _, _ | _, .ident .., _ => comparing_name _
  | _, .paren part, inside => by
      rw [Expr.parts, List.cons_subset] at inside
      rw [exprTree]
      exact (part.comparing inside.2).paren
  | _, .member part, inside => by
      rw [Expr.parts, List.cons_subset] at inside
      rw [exprTree]
      exact (part.comparing inside.2).memberTree _ _
  | _, .index part keyPart, inside => by
      rw [Expr.parts, List.cons_subset, List.append_subset] at inside
      obtain ⟨-, object, key⟩ := inside
      rw [exprTree]
      exact (part.comparing object).indexTree _ _ (keyPart.comparing key)
  | _, .print isConsole each, inside => by
      rw [Expr.parts, List.cons_subset, List.append_subset] at inside
      rw [exprTree, if_pos ⟨isConsole, rfl⟩]
      exact comparing_printTree fun arg isArg =>
        (each arg isArg).comparing (List.Subset.trans (parts_subset_listParts isArg) inside.2.2)
  | _, .method isMethod _ part each, inside => by
      rw [Expr.parts, Expr.parts, List.cons_subset, List.append_subset, List.cons_subset] at inside
      obtain ⟨-, ⟨-, object⟩, args⟩ := inside
      rw [exprTree, if_neg isMethod, exprTrees_eq_map]
      refine (part.comparing object).methodTree _ (List.forall_mem_map.2 fun arg isArg => ?_)
      exact (each arg isArg).comparing (List.Subset.trans (parts_subset_listParts isArg) args)
  | _, @Emittable.call _ _ _ name list named each, inside => by
      rw [Expr.parts, List.cons_subset, List.append_subset] at inside
      obtain ⟨isPart, -, args⟩ := inside
      have trees : ∀ tree ∈ exprTrees types list, Comparing types parts tree := by
        rw [exprTrees_eq_map]
        refine List.forall_mem_map.2 fun arg isArg => ?_
        exact (each arg isArg).comparing (List.Subset.trans (parts_subset_listParts isArg) args)
      rw [exprTree_call named]
      by_cases isStrcmp : name = "strcmp"
      · subst isStrcmp
        exact comparing_strcmp (fun _ => .own isPart named) trees
      · exact comparing_call isStrcmp trees
  | .unary _ op _, .unary part, inside => by
      rw [Expr.parts, List.cons_subset] at inside
      have arg := part.comparing inside.2
      cases op with
      | not =>
          rw [exprTree]
          exact (arg.conditionTree _).before _
      | _ =>
          rw [exprTree]
          · exact arg.before _
          · nofun
  | .update _ _ before _, .update place, inside => by
      rw [Expr.parts, List.cons_subset] at inside
      rw [exprTree]
      cases before with
      | true => exact (place.comparing inside.2).before _
      | false => exact (place.comparing inside.2).after _
  | _, .binary allowed left right, inside => by
      rw [Expr.parts, List.cons_subset, List.append_subset] at inside
      obtain ⟨isPart, lhs, rhs⟩ := inside
      rw [exprTree]
      exact comparing_binaryTree isPart allowed (left.comparing lhs) (right.comparing rhs)
  | .logical _ op first second, .logical left right, inside => by
      rw [Expr.parts, List.cons_subset, List.append_subset] at inside
      obtain ⟨-, lhs, rhs⟩ := inside
      rw [exprTree]
      exact ((left.comparing lhs).conditionTree first).between (.lazy op)
        ((right.comparing rhs).conditionTree second)
  | _, .assign place part, inside => by
      rw [Expr.parts, List.cons_subset, List.append_subset] at inside
      obtain ⟨-, target, value⟩ := inside
      rw [exprTree]
      exact (place.comparing target).assign _ (part.comparing value)
  | _, .conditional first second third, inside => by
      rw [Expr.parts, List.cons_subset, List.append_subset, List.append_subset] at inside
      obtain ⟨-, ⟨test, yes⟩, no⟩ := inside
      rw [exprTree]
      exact ((first.comparing test).conditionTree _).conditional (second.comparing yes)
        (third.comparing no)

theorem EmittablePlace.comparing : ∀ {e : Expr}, EmittablePlace types e → e.parts ⊆ parts →
    Comparing types parts (placeTree types e)
  | _, .ident .., _ => comparing_name _
  | _, .paren part, inside => by
      rw [Expr.parts, List.cons_subset] at inside
      rw [placeTree]
      exact part.comparing inside.2
  | _, .member part, inside => by
      rw [Expr.parts, List.cons_subset] at inside
      rw [placeTree]
      exact (part.comparing inside.2).memberTree _ _
  | _, .index part keyPart, inside => by
      rw [Expr.parts, List.cons_subset, List.append_subset] at inside
      obtain ⟨-, object, key⟩ := inside
      rw [placeTree]
      exact (part.comparing object).indexTree _ _ (keyPart.comparing key)

end

/-! ## Codes -/

/-- Every call of `strcmp` in the codes comes from some parts. -/
def ComparingAll (types : Types) (parts : List Part) (codes : List Code) : Prop :=
  ∀ code ∈ codes, ∀ tree ∈ code.trees, Comparing types parts tree

variable {codes others : List Code}

theorem comparingAll_nil : ComparingAll types parts [] :=
  nofun

theorem ComparingAll.append (all : ComparingAll types parts codes)
    (all' : ComparingAll types parts others) : ComparingAll types parts (codes ++ others) :=
  List.forall_mem_append.2 ⟨all, all'⟩

theorem ComparingAll.cons (all : ComparingAll types parts codes)
    (here : Comparing types parts tree) : ComparingAll types parts (.expression tree :: codes) :=
  List.forall_mem_cons.2 ⟨List.forall_mem_singleton.2 here, all⟩

theorem Comparing.single (here : Comparing types parts tree) :
    ComparingAll types parts [.expression tree] :=
  comparingAll_nil.cons here

/-- A value that can be assigned compares what its tree does; a literal has no tree of its own. -/
theorem EmittableValue.comparing {value : Expr} (given : EmittableValue types value)
    (inside : value.parts ⊆ parts) : Comparing types parts (exprTree types value) := by
  cases isLiteral : value.isLiteral with
  | false => exact (given.whole isLiteral).comparing inside
  | true =>
    cases value with
    | array | object => exact comparing_name _
    | _ => cases isLiteral

theorem ComparingAll.assignment {place : CExpr} (here : Comparing types parts place)
    (type : Option CType) {value : Expr} (given : EmittableValue types value)
    (inside : value.parts ⊆ parts) :
    ComparingAll types parts (assignmentCodes types place type value) := by
  unfold assignmentCodes
  split
  next node elements element _ dynamic =>
    rw [Expr.parts, List.cons_subset] at inside
    have target : Comparing types parts (if dynamic then .arrow place "data" else place) := by
      split
      · exact here.arrow "data"
      · exact here
    have stores : ∀ entry ∈ elements.zipIdx, ∀ tree ∈ [.index (if dynamic then .arrow place "data"
        else place) (.number (toString entry.2)), exprTree types entry.1],
        Comparing types parts tree := by
      intro entry member
      have isElement := List.fst_mem_of_mem_zipIdx member
      have value := (given.contents entry.1 isElement).comparing
        (List.Subset.trans (parts_subset_listParts isElement) inside.2)
      exact List.forall_mem_cons.2 ⟨target.index (comparing_number _),
        List.forall_mem_singleton.2 value⟩
    cases dynamic with
    | true =>
      refine List.forall_mem_cons.2 ⟨List.forall_mem_singleton.2 ?_, List.forall_mem_map.2 stores⟩
      refine comparing_call (by decide) ?_
      simpa using ⟨here, comparing_number _, comparing_number _⟩
    | false => exact List.forall_mem_map.2 stores
  next node properties _ =>
    rw [Expr.parts, List.cons_subset] at inside
    refine List.forall_mem_cons.2 ⟨List.forall_mem_singleton.2 ?_, ?_⟩
    · refine comparing_call (by decide) ?_
      simpa using ⟨here, comparing_number _⟩
    · refine List.forall_mem_map.2 fun property member => List.forall_mem_singleton.2 ?_
      have value := (given.contents property.2 (List.mem_map_of_mem member)).comparing
        (List.Subset.trans (parts_subset_propertyParts member) inside.2)
      refine comparing_call (by decide) ?_
      simpa using ⟨here, comparing_literal _, value⟩
  next => exact (here.assign none (given.comparing inside)).single

/-! ## Parts of statements -/

section Parts

variable {σ : Setting} {scope : ScopeId} {w w' : Workspace}

theorem comparing_of_run {e : Expr} {text : String}
    (run : expr (exprText · e) σ w = (.ok text, w')) (inside : e.parts ⊆ parts) :
    Comparing σ.types parts (exprTree σ.types e) :=
  (of_expr run (emittable_exprText e)).comparing inside

theorem comparing_of_condition {e : Expr} {text : String}
    (run : expr (condition · e) σ w = (.ok text, w')) (inside : e.parts ⊆ parts) :
    Comparing σ.types parts (conditionTree σ.types e (exprTree σ.types e)) :=
  ((of_expr run (emittable_condition e)).comparing inside).conditionTree e

/-- An expression in the head of a loop, which may be left out. -/
theorem comparing_of_part {part : Option Expr} {result : Option String}
    {action : Expr → Types → ExprM String} {tree : Expr → CExpr}
    (each : ∀ {e w w' text}, expr (action e) σ w = (.ok text, w') → e.parts ⊆ parts →
      Comparing σ.types parts (tree e))
    (run : part.mapM (fun e => expr (action e)) σ w = (.ok result, w'))
    (inside : partsOf part ⊆ parts) :
    ComparingAll σ.types parts [part.elim .absent fun e => .expression (tree e)] := by
  rcases mapM_option_ok.1 run with ⟨rfl, -, -⟩ | ⟨e, _, rfl, -, first⟩
  · exact List.forall_mem_singleton.2 nofun
  · exact (each first inside).single

theorem comparing_declarations : ∀ {declarators : List Declarator} {w w' : Workspace}
    {list : List Assignment}, declarations scope declarators σ w = (.ok list, w') →
      declarators.flatMap Declarator.parts ⊆ parts →
      ComparingAll σ.types parts (declaredCodes σ.types declarators)
  | [], _, _, _, _, _ => comparingAll_nil
  | declarator :: rest, _, _, _, run, inside => by
      rw [List.flatMap_cons, List.append_subset, Declarator.parts, List.cons_subset] at inside
      obtain ⟨⟨-, init⟩, others⟩ := inside
      simp only [declarations, bind_ok, typeOfNode_ok, pure_ok] at run
      obtain ⟨type, _, ⟨known, rfl⟩, _, _, -, first, _, given, _, _, run, -, -⟩ := run
      rw [declaredCodes, List.flatMap_cons]
      refine ComparingAll.append ?_ (comparing_declarations run others)
      rcases mapM_option_ok.1 given with ⟨none, -, -⟩ | ⟨e, a, some, -, run⟩
      · rw [none]
        exact comparingAll_nil
      · rw [some] at init ⊢
        have value := of_expr run (emittable_assignment declarator.name _ e)
        exact ComparingAll.assignment (comparing_name _) _ value init

theorem comparing_expressionStatement {e : Expr} {a : Assignment}
    (run : expressionStatement e σ w = (.ok a, w')) (inside : e.parts ⊆ parts) :
    ComparingAll σ.types parts (statementCodes σ.types e) := by
  unfold expressionStatement at run
  split at run
  next node target value =>
    rw [Expr.parts, List.cons_subset, List.append_subset] at inside
    simp only [bind_ok, read_bind] at run
    obtain ⟨place, _, first, run⟩ := run
    have placed := (of_expr first (emittable_placeText target)).comparing inside.2.1
    have assigned := of_expr run (emittable_assignment place _ value)
    exact ComparingAll.assignment placed _ assigned inside.2.2
  next plain =>
    simp only [bind_ok, pure_ok] at run
    obtain ⟨text, _, run, -, -⟩ := run
    unfold statementCodes
    split
    next => exact absurd rfl (plain _ _ _)
    next => exact (comparing_of_run run inside).single

theorem comparing_loopHead {id : NodeId} {left : ForBinding} {right : Expr}
    {found : String × String × String}
    (run : loopHead scope id left right σ w = (.ok found, w')) (inside : right.parts ⊆ parts)
    (inside' : left.parts ⊆ parts) :
    ComparingAll σ.types parts
      [.expression (exprTree σ.types right), bindingCode σ.types left] := by
  simp only [loopHead, bind_ok, pure_ok] at run
  obtain ⟨_, _, -, _, _, -, _, _, read, _, _, bound, -, -⟩ := run
  refine ComparingAll.cons ?_ (comparing_of_run read inside)
  cases left with
  | declare declarator => exact (comparing_name _).single
  | target e =>
    rw [binding] at bound
    exact ((of_expr bound (emittable_placeText e)).comparing inside').single

theorem comparing_loopStart {init : Option ForInit} {found : Option (List Assignment) × String}
    (run : loopStart scope init σ w = (.ok found, w')) (inside : startParts init ⊆ parts) :
    ComparingAll σ.types parts (startCodes σ.types init) := by
  have absent : ComparingAll σ.types parts [.absent] := List.forall_mem_singleton.2 nofun
  match init with
  | some (.declare declarators) =>
    simp only [loopStart, bind_ok, pure_ok] at run
    obtain ⟨list, _, declares, -, -⟩ := run
    exact (comparing_declarations declares inside).append absent
  | some (.evaluate e) =>
    simp only [loopStart, bind_ok, pure_ok] at run
    obtain ⟨text, _, read, -, -⟩ := run
    exact (comparing_of_run read inside).single
  | none => exact absent

theorem comparing_label {select : Selection} {index : Nat} {test : Option Expr}
    {found : Option (String × List String)}
    (run : test.mapM (label select index) σ w = (.ok found, w')) (inside : partsOf test ⊆ parts) :
    ComparingAll σ.types parts (test.toList.map (labelCode σ.types select.byIndex index)) := by
  rcases mapM_option_ok.1 run with ⟨rfl, -, -⟩ | ⟨e, _, rfl, -, first⟩
  · exact comparingAll_nil
  · rw [label, bind_ok] at first
    obtain ⟨value, _, read, -⟩ := first
    cases select with
    | value => exact (comparing_of_run read inside).single
    | index => exact (comparing_number _).single

/-- The comparisons of a `switch` compare its discriminant with its tests. -/
theorem EmitsClauses.comparing_comparisons {node : Node} {discriminant : Expr}
    {all : List (Clause Stmt)} (isPart : .stmt (.switchOn node discriminant all) ∈ parts)
    (noNumber : σ.types discriminant.id ≠ some .number)
    (here : Comparing σ.types parts (exprTree σ.types discriminant)) {scope : ScopeId}
    {select : Selection} {index : Nat} {list : List (Clause Stmt)} {w w' : Workspace}
    {comparisons : List String} {cases : List CStmt} {xs : List Variable}
    (emits : EmitsClauses σ scope select index list w comparisons cases xs w')
    (known : list ⊆ all) (inside : clauseParts list ⊆ parts) :
    ComparingAll σ.types parts (comparisonCodes σ.types discriminant index list) := by
  induction list generalizing index w comparisons cases xs with
  | nil => exact comparingAll_nil
  | cons clause rest ih =>
    obtain ⟨test, body⟩ := clause
    rw [clauseParts, List.append_subset, List.append_subset] at inside
    rw [List.cons_subset] at known
    cases emits with
    | cons head _ others =>
      refine ComparingAll.append ?_ (ih others known.2 inside.2)
      rcases mapM_option_ok.1 head with ⟨rfl, -, -⟩ | ⟨e, _, rfl, -, run⟩
      · exact comparingAll_nil
      · rw [label, bind_ok] at run
        obtain ⟨value, _, read, -⟩ := run
        have tested := comparing_of_run read inside.1.1
        refine List.forall_mem_singleton.2 (List.forall_mem_singleton.2 (Comparing.before ?_ _))
        exact comparing_strcmp (fun _ => .clause isPart noNumber known.1)
          (by simpa using ⟨here, tested⟩)

end Parts

/-! ## Statements -/

variable {σ : Setting}

mutual

/-- Every call of `strcmp` in what is emitted for a statement comes from the parts of it. -/
theorem Emits.comparing : ∀ {scope : ScopeId} {s : Stmt} {w w' : Workspace} {c : CStmt}
    {xs : List Variable}, Emits σ scope s w c xs w' → s.parts ⊆ parts →
      ComparingAll σ.types parts (s.codes σ.types)
  | _, _, _, _, _, _, .breakStmt .., _ | _, _, _, _, _, _, .continueStmt .., _
  | _, _, _, _, _, _, .emptyStmt .., _ | _, _, _, _, _, _, .importFrom _, _ => comparingAll_nil
  | _, _, _, _, _, _, .returnStmt run, inside => by
      rw [Stmt.parts, List.cons_subset] at inside
      simp only [returned, bind_ok] at run
      obtain ⟨_, _, read, -⟩ := run
      rcases mapM_option_ok.1 read with ⟨rfl, -, -⟩ | ⟨e, _, rfl, -, run⟩
      · exact comparingAll_nil
      · exact (comparing_of_run run inside.2).single
  | _, _, _, _, _, _, .ifThen head yes, inside => by
      rw [Stmt.parts, List.cons_subset, List.append_subset] at inside
      obtain ⟨-, test, body⟩ := inside
      exact (yes.comparing (rowParts_subset body)).cons (comparing_of_condition head test)
  | _, _, _, _, _, _, .ifElse head yes no, inside => by
      rw [Stmt.parts, List.cons_subset, List.append_subset, List.append_subset] at inside
      obtain ⟨-, ⟨test, body⟩, otherwise⟩ := inside
      have bodies := (yes.comparing (rowParts_subset body)).append
        (no.comparing (rowParts_subset otherwise))
      exact bodies.cons (comparing_of_condition head test)
  | _, _, _, _, _, _, .switchOn head each, inside => by
      rw [Stmt.parts, List.cons_subset, List.append_subset] at inside
      obtain ⟨isPart, discriminant, list⟩ := inside
      obtain ⟨text, _, read, selected⟩ := selection_ok head
      have here := comparing_of_run read discriminant
      have clauses := each.comparing list
      rcases selected with ⟨isNumber, rfl⟩ | ⟨notNumber, _, rfl, -⟩
      · rw [Stmt.codes, if_pos isNumber]
        exact clauses.cons here
      · rw [Stmt.codes, if_neg notNumber]
        refine ComparingAll.append ?_ clauses
        refine each.comparing_comparisons isPart ?_ here (List.Subset.refl _) list
        intro isNumber
        rw [isNumber] at notNumber
        exact notNumber rfl
  | _, _, _, _, _, _, .whileLoop head loop, inside => by
      rw [Stmt.parts, List.cons_subset, List.append_subset] at inside
      obtain ⟨-, test, body⟩ := inside
      exact (loop.comparing (rowParts_subset body)).cons (comparing_of_condition head test)
  | _, _, _, _, _, _, .doLoop loop last, inside => by
      rw [Stmt.parts, List.cons_subset, List.append_subset] at inside
      obtain ⟨-, body, test⟩ := inside
      exact (loop.comparing (rowParts_subset body)).append
        (comparing_of_condition last test).single
  | _, _, _, _, _, _, .forLoop start head step loop, inside => by
      rw [Stmt.parts, List.cons_subset, List.append_subset, List.append_subset,
        List.append_subset] at inside
      obtain ⟨-, ⟨⟨init, test⟩, update⟩, body⟩ := inside
      have tested := comparing_of_part comparing_of_condition head test
      have updated := comparing_of_part comparing_of_run step update
      exact ((comparing_loopStart start init).append (tested.append updated)).append
        (loop.comparing (rowParts_subset body))
  | _, _, _, _, _, _, .forOf _ head loop, inside => by
      rw [Stmt.parts, List.cons_subset, List.append_subset, List.append_subset] at inside
      obtain ⟨-, ⟨right, left⟩, body⟩ := inside
      have row := loop.comparing (by simpa [rowParts] using body)
      rw [rowCodes, rowCodes, List.append_nil] at row
      exact (comparing_loopHead head right left).append row
  | _, _, _, _, _, _, .forIn _ _ head loop, inside => by
      rw [Stmt.parts, List.cons_subset, List.append_subset, List.append_subset] at inside
      obtain ⟨-, ⟨right, left⟩, body⟩ := inside
      exact (comparing_loopHead head right left).append (loop.comparing (rowParts_subset body))
  | _, _, _, _, _, _, .expression run, inside => by
      rw [Stmt.parts, List.cons_subset] at inside
      exact comparing_expressionStatement run inside.2
  | _, _, _, _, _, _, .block inner, inside => by
      rw [Stmt.parts, List.cons_subset] at inside
      exact inner.comparing inside.2
  | _, _, _, _, _, _, .declaration run, inside => by
      rw [Stmt.parts, List.cons_subset] at inside
      exact comparing_declarations run inside.2

theorem EmitsAll.comparing : ∀ {scope : ScopeId} {body : List Stmt} {w w' : Workspace}
    {cs : List CStmt} {xs : List Variable}, EmitsAll σ scope body w cs xs w' →
      rowParts body ⊆ parts → ComparingAll σ.types parts (rowCodes σ.types body)
  | _, _, _, _, _, _, .nil .., _ => comparingAll_nil
  | _, _, _, _, _, _, .cons first others, inside => by
      rw [rowParts, List.append_subset] at inside
      exact (first.comparing inside.1).append (others.comparing inside.2)

theorem EmitsBlock.comparing : ∀ {scope : ScopeId} {body : List Stmt} {w w' : Workspace}
    {b : Block CStmt}, EmitsBlock σ scope body w b w' → rowParts body ⊆ parts →
      ComparingAll σ.types parts (rowCodes σ.types body)
  | _, _, _, _, _, .intro _ all _, inside => all.comparing inside

theorem EmitsHoisted.comparing : ∀ {scope : ScopeId} {body : List Stmt} {w w' : Workspace}
    {cs : List CStmt} {xs : List Variable}, EmitsHoisted σ scope body w cs xs w' →
      rowParts body ⊆ parts → ComparingAll σ.types parts (rowCodes σ.types body)
  | _, _, _, _, _, _, .intro _ all _, inside => all.comparing inside

theorem EmitsClauses.comparing : ∀ {scope : ScopeId} {select : Selection} {index : Nat}
    {list : List (Clause Stmt)} {w w' : Workspace} {comparisons : List String}
    {cases : List CStmt} {xs : List Variable},
    EmitsClauses σ scope select index list w comparisons cases xs w' →
      clauseParts list ⊆ parts →
      ComparingAll σ.types parts (clauseCodes σ.types select.byIndex index list)
  | _, _, _, _, _, _, _, _, _, .nil .., _ => comparingAll_nil
  | _, _, _, _, _, _, _, _, _, .cons head first others, inside => by
      rw [clauseParts, List.append_subset, List.append_subset] at inside
      obtain ⟨⟨test, body⟩, rest⟩ := inside
      exact ((comparing_label head test).append (first.comparing body)).append
        (others.comparing rest)

end

/-! ## What is compared -/

/-- **What is compared by `strcmp`.** A call of `strcmp` in what is emitted for an expression or a
statement compares two strings that the sides of an equality are, or the discriminant of a `switch`
that is not known to be a number with a test of it, unless the script calls a function of this name
itself. An equality without a string stays an operator, and a `switch` on a number has no
comparisons. Of an equality of a string with a value of another type nothing is said. -/
theorem strcmp_compares (σ : Setting) :
    (∀ (e : Expr) (headers headers' : Headers) (text : String),
      exprText σ.types e headers = (.ok text, headers') →
        Spells (exprTree σ.types e) text ∧ Comparing σ.types e.parts (exprTree σ.types e)) ∧
      (∀ (scope : ScopeId) (s : Stmt) (w w' : Workspace) (c : CStmt),
        stmt scope s σ w = (.ok c, w') →
          SpellAll (s.codes σ.types) c.texts ∧ Shows c.tokens c.texts ∧
            ComparingAll σ.types s.parts (s.codes σ.types)) ∧
      (∀ (node : Node) (op : BinaryOp) (lhs rhs : Expr), typeOf σ.types lhs ≠ .string →
        typeOf σ.types rhs ≠ .string → exprTree σ.types (.binary node op lhs rhs) =
          .between (.strict op) (exprTree σ.types lhs) (exprTree σ.types rhs)) ∧
      ∀ (node : Node) (discriminant : Expr) (list : List (Clause Stmt)),
        σ.types discriminant.id = some .number →
          (Stmt.switchOn node discriminant list).codes σ.types =
            .expression (exprTree σ.types discriminant) :: clauseCodes σ.types false 0 list := by
  refine ⟨?_, ?_, ?_, ?_⟩
  · intro e headers headers' text run
    exact ⟨spells_exprText e run, (emittable_exprText e run).comparing (List.Subset.refl _)⟩
  · intro scope s w w' c run
    obtain ⟨_, derivation⟩ := emits_of_run s run
    exact ⟨derivation.spells, shows_tokens c, derivation.comparing (List.Subset.refl _)⟩
  · intro node op lhs rhs left right
    have noString : ¬ ((typeOf σ.types lhs).isString || (typeOf σ.types rhs).isString) = true := by
      simp [CType.isString_iff, left, right]
    rw [exprTree, binaryTree, if_neg noString]
  · intro node discriminant list isNumber
    rw [Stmt.codes, isNumber]
    rfl

/-- A setting in which one variable has a type. -/
def oneVariable (type : CType) : Setting :=
  ⟨fun id => if id = 1 then some type else none, "ts2c"⟩

/-- The variable. -/
def variableX : Expr :=
  .ident ⟨1, ⟨8, 9⟩⟩ "x"

/-- A string is compared with a literal; a number is compared with a numeral, and its `switch` has
no comparisons. -/
theorem strcmp_compares_literal :
    let isOn := Expr.binary ⟨2, ⟨8, 16⟩⟩ .eq variableX (.string ⟨3, ⟨12, 16⟩⟩ "on")
    let isZero := Expr.binary ⟨2, ⟨8, 14⟩⟩ .eq variableX (.number ⟨3, ⟨13, 14⟩⟩ "0")
    let ifOn := Stmt.ifThen ⟨4, ⟨4, 20⟩⟩ isOn ⟨some ⟨5, ⟨18, 20⟩⟩, []⟩
    let onNumber := Stmt.switchOn ⟨2, ⟨0, 20⟩⟩ variableX []
    let string := oneVariable .string
    let number := oneVariable .number
    exprText string.types isOn {} =
        (.ok "strcmp(x, \"on\") == 0", ({} : Headers).register "string") ∧
      Comparing string.types isOn.parts (exprTree string.types isOn) ∧
      (∃ c, (stmt 0 ifOn string { scopes := (ScopeTree.newFunction {}).2 }).1 = .ok c ∧
        c.texts = ["strcmp(x, \"on\") == 0"]) ∧
      ComparingAll string.types ifOn.parts (ifOn.codes string.types) ∧
      exprTree number.types isZero = .between (.strict .eq) (.name "x") (.number "0") ∧
      onNumber.codes number.types = [.expression (.name "x")] := by
  intro isOn isZero ifOn onNumber string number
  have text : exprText string.types isOn {} =
      (.ok "strcmp(x, \"on\") == 0", ({} : Headers).register "string") := by rfl
  obtain ⟨inExpressions, inStatements, -, -⟩ := strcmp_compares string
  obtain ⟨-, -, operators, switches⟩ := strcmp_compares number
  have run : ∃ c w', stmt 0 ifOn string { scopes := (ScopeTree.newFunction {}).2 } =
      (.ok c, w') ∧ c.texts = ["strcmp(x, \"on\") == 0"] := ⟨_, _, rfl, rfl⟩
  obtain ⟨c, w', run, texts⟩ := run
  refine ⟨text, (inExpressions isOn _ _ _ text).2, ⟨c, congrArg Prod.fst run, texts⟩, ?_, ?_, ?_⟩
  · exact (inStatements 0 ifOn _ _ _ run).2.2
  · exact operators _ .eq variableX (.number ⟨3, ⟨13, 14⟩⟩ "0") (by decide) (by decide)
  · exact switches _ variableX [] (by decide)

/-- A `switch` on a truth value hands two of them to `strcmp`, and an equality of a string with
`null` hands it `NULL`. -/
theorem strcmp_compares_others :
    let types := (oneVariable .boolean).types
    let test := Expr.bool ⟨3, ⟨18, 22⟩⟩ true
    let onTruth := Stmt.switchOn ⟨2, ⟨0, 26⟩⟩ variableX [⟨some test, []⟩]
    let types' := (oneVariable .string).types
    let null := Expr.null ⟨3, ⟨13, 17⟩⟩
    let isNull := Expr.binary ⟨2, ⟨8, 17⟩⟩ .eq variableX null
    (∃ w', stmt 0 onTruth (oneVariable .boolean) { scopes := (ScopeTree.newFunction {}).2 } =
        (.ok (.switchByIndex "tmp_switch" ["!strcmp(x, 1) ? 0"] [.clause (some "0") []]), w')) ∧
      Compares types onTruth.parts [exprTree types variableX, exprTree types test] ∧
      typeOf types variableX = .boolean ∧ typeOf types test = .boolean ∧
      (∃ headers', exprText types' isNull {} = (.ok "strcmp(x, NULL) == 0", headers')) ∧
      Mixed types' isNull.parts [exprTree types' variableX, exprTree types' null] ∧
      typeOf types' null = .unknown := by
  intro types test onTruth types' null isNull
  refine ⟨⟨_, rfl⟩, ?_, rfl, rfl, ⟨_, rfl⟩, ?_, rfl⟩
  · exact .clause List.mem_cons_self (by decide) List.mem_cons_self
  · exact ⟨_, .eq, variableX, null, List.mem_cons_self, .inl rfl, by decide, rfl⟩

end Emit

end ScriptToC
