import ScriptToC.Proofs.Lowering.Run

/-!
# Rules of lowering

Lowering that succeeds is a derivation: what a part of a script is lowered to comes from what its
own parts are lowered to, each from the state that the part before it left. The rules say where the
nodes are taken, what is recorded for them, and what is put back at the end of a scope; what is
rejected has no rule.

Every run that succeeds has a derivation (`lowersStmt_of_run`, `lowersItems_of_run`). Properties of
what is lowered are proved by induction on the derivation.
-/

set_option autoImplicit false

namespace ScriptToC.Lowering

open Source

variable {declared : Declared} {before after : State}

/-! ## Expressions -/

mutual

/-- From a state, an expression is lowered to an expression and leaves another state. -/
inductive LowersExpr (declared : Declared) : Expr → State → Ir.Expr → State → Prop
  | number (span : Span) (value : Option Decimal) (raw : String) (state : State) :
      LowersExpr declared (.number span value raw) state
        (.number ⟨state.next, span⟩ (numberText value raw))
        (state.inferred declared (.number ⟨state.next, span⟩ (numberText value raw)))
  | string (span : Span) (value : String) (state : State) :
      LowersExpr declared (.string span value) state (.string ⟨state.next, span⟩ value)
        (state.inferred declared (.string ⟨state.next, span⟩ value))
  | bool (span : Span) (value : Bool) (state : State) :
      LowersExpr declared (.bool span value) state (.bool ⟨state.next, span⟩ value)
        (state.inferred declared (.bool ⟨state.next, span⟩ value))
  | null (span : Span) (state : State) :
      LowersExpr declared (.null span) state (.null ⟨state.next, span⟩)
        (state.inferred declared (.null ⟨state.next, span⟩))
  | template (span : Span) (chunks : List Chunk) (state : State) :
      LowersExpr declared (.template span chunks false) state
        (.string ⟨state.next, span⟩ (String.join (chunks.map (·.raw))))
        (state.inferred declared
          (.string ⟨state.next, span⟩ (String.join (chunks.map (·.raw)))))
  | undefined (span : Span) (state : State) :
      LowersExpr declared (.ident span "undefined") state (.null ⟨state.next, span⟩)
        (state.inferred declared (.null ⟨state.next, span⟩))
  | ident (span : Span) {name : String} (state : State) (isVariable : name ≠ "undefined") :
      LowersExpr declared (.ident span name) state (.ident ⟨state.next, span⟩ name)
        (state.taken.use name state.next)
  | paren {span : Span} {inner : Expr} {before middle : State} {inner' : Ir.Expr}
      (first : LowersExpr declared inner before inner' middle) :
      LowersExpr declared (.paren span inner) before (.paren ⟨middle.next, span⟩ inner')
        (middle.taken.shareType middle.next inner'.id)
  | typed {span : Span} {inner : Expr} {before after : State} {inner' : Ir.Expr}
      (first : LowersExpr declared inner before inner' after) :
      LowersExpr declared (.typed span inner) before inner' after
  | array {span : Span} {elements : List (Option Expr)} {before middle : State}
      {list : List Ir.Expr} (each : LowersPlain declared elements before list middle) :
      LowersExpr declared (.array span elements) before (.array ⟨middle.next, span⟩ list)
        (middle.inferred declared (.array ⟨middle.next, span⟩ list))
  | object {span : Span} {properties : List (Option (Property Expr))} {before middle : State}
      {list : List (String × Ir.Expr)}
      (each : LowersProperties declared properties before list middle) :
      LowersExpr declared (.object span properties) before (.object ⟨middle.next, span⟩ list)
        (middle.inferred declared (.object ⟨middle.next, span⟩ list))
  | member {span : Span} {object : Expr} {property : String} {before middle : State}
      {object' : Ir.Expr} (first : LowersExpr declared object before object' middle) :
      LowersExpr declared (.member span object property) before
        (.member ⟨middle.next, span⟩ object' property)
        (middle.inferred declared (.member ⟨middle.next, span⟩ object' property))
  | index {span : Span} {object key : Expr} {before middle last : State} {object' key' : Ir.Expr}
      (first : LowersExpr declared object before object' middle)
      (second : LowersExpr declared key middle key' last) :
      LowersExpr declared (.index span object key) before (.index ⟨last.next, span⟩ object' key')
        (last.inferred declared (.index ⟨last.next, span⟩ object' key'))
  | call {span : Span} {callee : Expr} {args : List (Option Expr)}
      {before middle last grown : State} {callee' : Ir.Expr} {list : List Ir.Expr}
      (first : LowersExpr declared callee before callee' middle)
      (each : LowersPlain declared args middle list last)
      (growth : noteGrowth callee' declared last = .ok ((), grown)) :
      LowersExpr declared (.call span callee args) before (.call ⟨grown.next, span⟩ callee' list)
        (grown.inferred declared (.call ⟨grown.next, span⟩ callee' list))
  | unary {span : Span} {spelling : String} {op : Ir.UnaryOp} {arg : Expr}
      {before middle : State} {arg' : Ir.Expr} (known : unaryOp? spelling = some op)
      (first : LowersExpr declared arg before arg' middle) :
      LowersExpr declared (.unary span spelling arg) before (.unary ⟨middle.next, span⟩ op arg')
        (middle.inferred declared (.unary ⟨middle.next, span⟩ op arg'))
  | update {span : Span} {spelling : String} {isBefore : Bool} {target : Expr}
      {before middle : State} {target' : Ir.Expr}
      (first : LowersTarget declared target before target' middle) :
      LowersExpr declared (.update span spelling isBefore target) before
        (.update ⟨middle.next, span⟩ (if spelling = "++" then .increment else .decrement) isBefore
          target')
        (middle.inferred declared
          (.update ⟨middle.next, span⟩ (if spelling = "++" then .increment else .decrement) isBefore
            target'))
  | binary {span : Span} {spelling : String} {op : Ir.BinaryOp} {lhs rhs : Expr}
      {before middle last : State} {lhs' rhs' : Ir.Expr} (known : binaryOp? spelling = some op)
      (first : LowersExpr declared lhs before lhs' middle)
      (second : LowersExpr declared rhs middle rhs' last) :
      LowersExpr declared (.binary span spelling lhs rhs) before
        (.binary ⟨last.next, span⟩ op lhs' rhs')
        (last.inferred declared (.binary ⟨last.next, span⟩ op lhs' rhs'))
  | logical {span : Span} {spelling : String} {op : Ir.LogicalOp} {lhs rhs : Expr}
      {before middle last : State} {lhs' rhs' : Ir.Expr} (known : logicalOp? spelling = some op)
      (first : LowersExpr declared lhs before lhs' middle)
      (second : LowersExpr declared rhs middle rhs' last) :
      LowersExpr declared (.logical span spelling lhs rhs) before
        (.logical ⟨last.next, span⟩ op lhs' rhs')
        (last.inferred declared (.logical ⟨last.next, span⟩ op lhs' rhs'))
  | assign {span : Span} {spelling : String} {op : Option Ir.BinaryOp} {target value : Expr}
      {before middle last : State} {target' value' : Ir.Expr}
      (known : assignOp? spelling = some op)
      (first : LowersTarget declared target before target' middle)
      (second : LowersExpr declared value middle value' last) :
      LowersExpr declared (.assign span spelling target value) before
        (.assign ⟨last.next, span⟩ op target' value')
        (last.inferred declared (.assign ⟨last.next, span⟩ op target' value'))
  | conditional {span : Span} {test yes no : Expr} {before middle middle' last : State}
      {test' yes' no' : Ir.Expr} (first : LowersExpr declared test before test' middle)
      (second : LowersExpr declared yes middle yes' middle')
      (third : LowersExpr declared no middle' no' last) :
      LowersExpr declared (.conditional span test yes no) before
        (.conditional ⟨last.next, span⟩ test' yes' no')
        (last.inferred declared (.conditional ⟨last.next, span⟩ test' yes' no'))

/-- An expression that is assigned to. -/
inductive LowersTarget (declared : Declared) : Expr → State → Ir.Expr → State → Prop
  | ident (span : Span) (name : String) (state : State) :
      LowersTarget declared (.ident span name) state (.ident ⟨state.next, span⟩ name)
        (state.taken.use name state.next)
  | member {span : Span} {object : Expr} {property : String} {before middle : State}
      {object' : Ir.Expr} (first : LowersExpr declared object before object' middle) :
      LowersTarget declared (.member span object property) before
        (.member ⟨middle.next, span⟩ object' property)
        (middle.inferred declared (.member ⟨middle.next, span⟩ object' property))
  | index {span : Span} {object key : Expr} {before middle last : State} {object' key' : Ir.Expr}
      (first : LowersExpr declared object before object' middle)
      (second : LowersExpr declared key middle key' last) :
      LowersTarget declared (.index span object key) before (.index ⟨last.next, span⟩ object' key')
        (last.inferred declared (.index ⟨last.next, span⟩ object' key'))

/-- Expressions in a row, none of which is missing. -/
inductive LowersPlain (declared : Declared) :
    List (Option Expr) → State → List Ir.Expr → State → Prop
  | nil (state : State) : LowersPlain declared [] state [] state
  | cons {e : Expr} {rest : List (Option Expr)} {before middle after : State} {e' : Ir.Expr}
      {list : List Ir.Expr} (first : LowersExpr declared e before e' middle)
      (others : LowersPlain declared rest middle list after) :
      LowersPlain declared (some e :: rest) before (e' :: list) after

/-- The properties of an object literal. -/
inductive LowersProperties (declared : Declared) :
    List (Option (Property Expr)) → State → List (String × Ir.Expr) → State → Prop
  | nil (state : State) : LowersProperties declared [] state [] state
  | cons {span : Span} {name : String} {value : Expr} {rest : List (Option (Property Expr))}
      {before middle after : State} {value' : Ir.Expr} {list : List (String × Ir.Expr)}
      (first : LowersExpr declared value before value' middle)
      (others : LowersProperties declared rest middle list after) :
      LowersProperties declared (some ⟨span, false, .name name, value⟩ :: rest) before
        ((name, value') :: list) after

end

/-- An expression that may be missing. -/
inductive LowersPart (declared : Declared) :
    Option Expr → State → Option Ir.Expr → State → Prop
  | none (state : State) : LowersPart declared none state none state
  | some {e : Expr} {before after : State} {e' : Ir.Expr}
      (first : LowersExpr declared e before e' after) :
      LowersPart declared (some e) before (some e') after

theorem lowersPart_some {part : Option Expr} {e' : Ir.Expr}
    (lowers : LowersPart declared part before (some e') after) :
    ∃ e, part = some e ∧ LowersExpr declared e before e' after := by
  cases lowers with
  | some first => exact ⟨_, rfl, first⟩

/-! ## Declarations and the heads of loops -/

/-- What the annotation of a variable means, if it is there and has a meaning. -/
def annotated? (declared : Declared) (source : Declarator) : Option CType :=
  (source.annotation.map (typeOfExpr declared.aliases)).filter (· ≠ .unknown)

/-- The variables of a declaration. -/
inductive LowersDeclarators (declared : Declared) :
    List Declarator → State → List Ir.Declarator → State → Prop
  | nil (state : State) : LowersDeclarators declared [] state [] state
  | cons {declarator : Declarator} {rest : List Declarator} {name : String}
      {before middle after : State} {init' : Option Ir.Expr} {list : List Ir.Declarator}
      (named : declarator.name = some name)
      (init : LowersPart declared declarator.init before init' middle)
      (others : LowersDeclarators declared rest
        (middle.taken.declare name
          ((annotated? declared declarator).getD
            (init'.elim .unknown fun e => middle.typeOf e.id)) middle.next)
        list after) :
      LowersDeclarators declared (declarator :: rest) before
        (⟨⟨middle.next, declarator.span⟩, name, init'⟩ :: list) after

/-- What a loop over a collection assigns to. -/
inductive LowersForLeft (declared : Declared) (element : CType) :
    ForLeft → State → Ir.ForBinding → State → Prop
  | declare {span : Span} {declarator : Declarator} {name : String} (state : State)
      (named : declarator.name = some name) :
      LowersForLeft declared element (.declare span [declarator]) state
        (.declare ⟨⟨state.next, declarator.span⟩, name, none⟩)
        (state.taken.declare name element state.next)
  | target {e : Expr} {before after : State} {e' : Ir.Expr}
      (first : LowersTarget declared e before e' after) :
      LowersForLeft declared element (.target e) before (.target e') after

/-- What a `for` loop does first, if anything. -/
inductive LowersStart (declared : Declared) :
    Option ForInit → State → Option Ir.ForInit → State → Prop
  | none (state : State) : LowersStart declared none state none state
  | declare {declarators : List Declarator} {before after : State} {list : List Ir.Declarator}
      (declares : LowersDeclarators declared declarators before list after) :
      LowersStart declared (some (.declare declarators)) before (some (.declare list)) after
  | evaluate {e : Expr} {before after : State} {e' : Ir.Expr}
      (first : LowersExpr declared e before e' after) :
      LowersStart declared (some (.evaluate e)) before (some (.evaluate e')) after

/-! ## Statements -/

mutual

/-- From a state, a statement is lowered to a statement and leaves another state. -/
inductive LowersStmt (declared : Declared) : Stmt → State → Ir.Stmt → State → Prop
  | declaration {span : Span} {declarators : List Declarator} {before middle : State}
      {list : List Ir.Declarator}
      (declares : LowersDeclarators declared declarators before list middle) :
      LowersStmt declared (.declaration span declarators) before
        (.declaration ⟨middle.next, span⟩ list) middle.taken
  | expression {span : Span} {e : Expr} {before middle : State} {e' : Ir.Expr}
      (first : LowersExpr declared e before e' middle) :
      LowersStmt declared (.expression span e) before (.expression ⟨middle.next, span⟩ e')
        middle.taken
  | returnStmt {span : Span} {value : Option Expr} {before middle : State}
      {value' : Option Ir.Expr} (first : LowersPart declared value before value' middle) :
      LowersStmt declared (.returnStmt span value) before (.returnStmt ⟨middle.next, span⟩ value')
        middle.taken
  | ifThen {span : Span} {test : Expr} {body : Stmt} {before middle inner : State}
      {test' : Ir.Expr} {body' : Ir.Stmt} (head : LowersExpr declared test before test' middle)
      (inside : LowersStmt declared body middle body' inner) :
      LowersStmt declared (.ifThen span test body) before
        (.ifThen ⟨(inner.leave middle).next, span⟩ test' body'.toBody)
        (inner.leave middle).taken
  | ifElse {span : Span} {test : Expr} {body otherwise : Stmt}
      {before middle inner inner' : State} {test' : Ir.Expr} {body' otherwise' : Ir.Stmt}
      (head : LowersExpr declared test before test' middle)
      (yes : LowersStmt declared body middle body' inner)
      (no : LowersStmt declared otherwise (inner.leave middle) otherwise' inner') :
      LowersStmt declared (.ifElse span test body otherwise) before
        (.ifElse ⟨(inner'.leave (inner.leave middle)).next, span⟩ test' body'.toBody
          otherwise'.toBody)
        (inner'.leave (inner.leave middle)).taken
  | whileLoop {span : Span} {test : Expr} {body : Stmt} {before middle inner : State}
      {test' : Ir.Expr} {body' : Ir.Stmt} (head : LowersExpr declared test before test' middle)
      (inside : LowersStmt declared body middle body' inner) :
      LowersStmt declared (.whileLoop span test body) before
        (.whileLoop ⟨(inner.leave middle).next, span⟩ test' body'.toBody)
        (inner.leave middle).taken
  | doLoop {span : Span} {body : Stmt} {test : Expr} {before inner last : State}
      {body' : Ir.Stmt} {test' : Ir.Expr} (inside : LowersStmt declared body before body' inner)
      (tail : LowersExpr declared test (inner.leave before) test' last) :
      LowersStmt declared (.doLoop span body test) before
        (.doLoop ⟨last.next, span⟩ body'.toBody test') last.taken
  | forLoop {span : Span} {init : Option ForInit} {test update : Option Expr} {body : Stmt}
      {before middle middle' outer inner : State} {init' : Option Ir.ForInit}
      {test' update' : Option Ir.Expr} {body' : Ir.Stmt}
      (start : LowersStart declared init before init' middle)
      (head : LowersPart declared test middle test' middle')
      (step : LowersPart declared update middle' update' outer)
      (inside : LowersStmt declared body outer body' inner) :
      LowersStmt declared (.forLoop span init test update body) before
        (.forLoop ⟨((inner.leave outer).leave before).next, span⟩ init' test' update' body'.toBody)
        ((inner.leave outer).leave before).taken
  | forOf {span : Span} {left : ForLeft} {right : Expr} {body : Stmt}
      {before middle outer inner : State} {left' : Ir.ForBinding} {right' : Ir.Expr}
      {body' : Ir.Stmt} (first : LowersExpr declared right before right' middle)
      (head : LowersForLeft declared (elementType (middle.typeOf right'.id)) left middle left'
        outer)
      (inside : LowersStmt declared body outer body' inner) :
      LowersStmt declared (.forOf span false left right body) before
        (.forOf ⟨((inner.leave outer).leave before).next, span⟩ left' right' body')
        ((inner.leave outer).leave before).taken
  | forIn {span : Span} {left : ForLeft} {right : Expr} {body : Stmt}
      {before middle outer inner : State} {left' : Ir.ForBinding} {right' : Ir.Expr}
      {body' : Ir.Stmt} (first : LowersExpr declared right before right' middle)
      (head : LowersForLeft declared .string left middle left' outer)
      (inside : LowersStmt declared body outer body' inner) :
      LowersStmt declared (.forIn span left right body) before
        (.forIn ⟨((inner.leave outer).leave before).next, span⟩ left' right' body'.toBody)
        ((inner.leave outer).leave before).taken
  | switchOn {span : Span} {discriminant : Expr} {cases : List (Case Stmt)}
      {before middle inner : State} {discriminant' : Ir.Expr} {clauses : List (Ir.Clause Ir.Stmt)}
      (head : LowersExpr declared discriminant before discriminant' middle)
      (each : LowersCases declared cases middle clauses inner) :
      LowersStmt declared (.switchOn span discriminant cases) before
        (.switchOn ⟨(inner.leave middle).next, span⟩ discriminant' clauses)
        (inner.leave middle).taken
  | breakStmt (span : Span) (state : State) :
      LowersStmt declared (.breakStmt span false) state (.breakStmt ⟨state.next, span⟩) state.taken
  | continueStmt (span : Span) (state : State) :
      LowersStmt declared (.continueStmt span false) state (.continueStmt ⟨state.next, span⟩)
        state.taken
  | emptyStmt (span : Span) (state : State) :
      LowersStmt declared (.emptyStmt span) state (.emptyStmt ⟨state.next, span⟩) state.taken
  | block {span : Span} {body : List Stmt} {before inner : State} {body' : List Ir.Stmt}
      (all : LowersStmts declared body before body' inner) :
      LowersStmt declared (.block span body) before (.block ⟨(inner.leave before).next, span⟩ body')
        (inner.leave before).taken
  | importFrom (span : Span) (names : List String) (source : String) (state : State) :
      LowersStmt declared (.importFrom span names source) state
        (.importFrom ⟨(names.foldl State.mention state).next, span⟩ source)
        (names.foldl State.mention state).taken

/-- Statements in a row; interfaces and type aliases among them are passed over. -/
inductive LowersStmts (declared : Declared) :
    List Stmt → State → List Ir.Stmt → State → Prop
  | nil (state : State) : LowersStmts declared [] state [] state
  | typeOnly {span : Span} {rest : List Stmt} {before after : State} {list : List Ir.Stmt}
      (others : LowersStmts declared rest before list after) :
      LowersStmts declared (.typeOnly span :: rest) before list after
  | cons {s : Stmt} {rest : List Stmt} {before middle after : State} {s' : Ir.Stmt}
      {list : List Ir.Stmt} (first : LowersStmt declared s before s' middle)
      (others : LowersStmts declared rest middle list after) :
      LowersStmts declared (s :: rest) before (s' :: list) after

/-- The clauses of a `switch`. -/
inductive LowersCases (declared : Declared) :
    List (Case Stmt) → State → List (Ir.Clause Ir.Stmt) → State → Prop
  | nil (state : State) : LowersCases declared [] state [] state
  | cons {test : Option Expr} {body : List Stmt} {rest : List (Case Stmt)}
      {before middle middle' after : State} {test' : Option Ir.Expr} {body' : List Ir.Stmt}
      {list : List (Ir.Clause Ir.Stmt)} (head : LowersPart declared test before test' middle)
      (inside : LowersStmts declared body middle body' middle')
      (others : LowersCases declared rest middle' list after) :
      LowersCases declared (⟨test, body⟩ :: rest) before (⟨test', body'⟩ :: list) after

end

/-! ## Scripts -/

/-- The type of a parameter, which is a number if nothing else is written. -/
def paramType (declared : Declared) (param : Param) : CType :=
  (param.annotation.map (typeOfExpr declared.aliases)).getD .number

/-- The parameters of a function. -/
inductive LowersParams (declared : Declared) :
    List Param → State → List Ir.Param → State → Prop
  | nil (state : State) : LowersParams declared [] state [] state
  | cons {param : Param} {rest : List Param} {name : String} {before after : State}
      {list : List Ir.Param} (named : param.name = some name)
      (others : LowersParams declared rest
        (before.taken.declare name (paramType declared param) before.next) list after) :
      LowersParams declared (param :: rest) before
        (⟨before.next, name, paramType declared param⟩ :: list) after

/-- The state in which no variable is visible. -/
def State.hidden (state : State) : State :=
  { state with visible := [] }

/-- A function, which begins with its parameters alone. A declaration without a body gives none. -/
inductive LowersFunction (declared : Declared) :
    Function → State → Option Ir.Function → State → Prop
  | declaration {f : Function} {name : String} (before : State) (named : f.name = some name)
      (bodiless : f.body = none) :
      LowersFunction declared f before none (before.mention name)
  | definition {f : Function} {name : String} {body : List Stmt} {before middle inner : State}
      {list : List Ir.Param} {body' : List Ir.Stmt} (named : f.name = some name)
      (hasBody : f.body = some body) (isPlain : f.isSpecial = false) (noRest : f.hasRest = false)
      (params : LowersParams declared f.params (before.mention name).hidden list middle)
      (all : LowersStmts declared body middle body' inner) :
      LowersFunction declared f before
        (some ⟨⟨(inner.leave before).next, f.span⟩, name, list,
          (declared.returnType? name).getD .void, body'⟩)
        (inner.leave before).taken

/-- The items of a script, of which interfaces and type aliases are passed over. -/
inductive LowersItems (declared : Declared) : List Item → State → Ir.Module → State → Prop
  | nil (state : State) : LowersItems declared [] state ⟨[], []⟩ state
  | function {f : Function} {rest : List Item} {before middle after : State}
      {result : Option Ir.Function} {module : Ir.Module}
      (first : LowersFunction declared f before result middle)
      (others : LowersItems declared rest middle module after) :
      LowersItems declared (.function f :: rest) before
        { module with functions := result.toList ++ module.functions } after
  | exportedVariables {span : Span} {declarators : List Declarator} {rest : List Item}
      {before middle after : State} {s' : Ir.Stmt} {module : Ir.Module}
      (first : LowersStmt declared (.declaration span declarators) before s' middle)
      (others : LowersItems declared rest middle module after) :
      LowersItems declared (.exportedVariables span declarators :: rest) before
        { module with topLevel := s' :: module.topLevel } after
  | statement {s : Stmt} {rest : List Item} {before middle after : State} {s' : Ir.Stmt}
      {module : Ir.Module} (first : LowersStmt declared s before s' middle)
      (others : LowersItems declared rest middle module after) :
      LowersItems declared (.statement s :: rest) before
        { module with topLevel := s' :: module.topLevel } after
  | typeOnly {span : Span} {rest : List Item} {before after : State} {module : Ir.Module}
      (others : LowersItems declared rest before module after) :
      LowersItems declared (.statement (.typeOnly span) :: rest) before module after
  | interface {name : String} {members : List (Member TypeExpr)} {rest : List Item}
      {before after : State} {module : Ir.Module}
      (others : LowersItems declared rest before module after) :
      LowersItems declared (.interface name members :: rest) before module after
  | typeAlias {name : String} {type : TypeExpr} {rest : List Item} {before after : State}
      {module : Ir.Module} (others : LowersItems declared rest before module after) :
      LowersItems declared (.typeAlias name type :: rest) before module after

/-! ## Runs have derivations -/

mutual

/-- Lowering an expression that succeeds is a derivation. -/
theorem lowersExpr_of_run : ∀ (e : Expr) {before after : State} {result : Ir.Expr},
    lowerExpr e declared before = .ok (result, after) →
      LowersExpr declared e before result after
  | .number .., _, _, _, run | .string .., _, _, _, run | .bool .., _, _, _, run
  | .null _, _, _, _, run => by
      simp only [lowerExpr, typed_ok] at run
      obtain ⟨rfl, rfl⟩ := run
      constructor
  | .template .., _, _, _, run => by
      rw [lowerExpr, guard_ok, typed_ok] at run
      obtain ⟨rfl, rfl, rfl⟩ := run
      exact .template ..
  | .ident span name, before, _, _, run => by
      rw [lowerExpr] at run
      split at run
      next isUndefined =>
        obtain ⟨rfl, rfl⟩ := typed_ok.1 run
        rw [isUndefined]
        exact .undefined span before
      next isVariable =>
        obtain ⟨rfl, rfl⟩ := nameUse_ok.1 run
        exact .ident span before isVariable
  | .paren _ inner, _, _, _, run => by
      simp only [lowerExpr, bind_ok, freshNode_ok, modify_ok, pure_ok] at run
      obtain ⟨_, _, first, _, _, ⟨rfl, rfl⟩, _, _, rfl, rfl, rfl⟩ := run
      exact .paren (lowersExpr_of_run inner first)
  | .typed _ inner, _, _, _, run => by
      rw [lowerExpr] at run
      exact .typed (lowersExpr_of_run inner run)
  | .array _ elements, _, _, _, run => by
      simp only [lowerExpr, bind_ok, typed_ok] at run
      obtain ⟨_, _, each, rfl, rfl⟩ := run
      exact .array (lowersPlain_of_run elements each)
  | .object _ properties, _, _, _, run => by
      simp only [lowerExpr, bind_ok, typed_ok] at run
      obtain ⟨_, _, each, rfl, rfl⟩ := run
      exact .object (lowersProperties_of_run properties each)
  | .member _ object _, _, _, _, run => by
      simp only [lowerExpr, bind_ok, typed_ok] at run
      obtain ⟨_, _, first, rfl, rfl⟩ := run
      exact .member (lowersExpr_of_run object first)
  | .index _ object key, _, _, _, run => by
      simp only [lowerExpr, bind_ok, typed_ok] at run
      obtain ⟨_, _, first, _, _, second, rfl, rfl⟩ := run
      exact .index (lowersExpr_of_run object first) (lowersExpr_of_run key second)
  | .call _ callee args, _, _, _, run => by
      simp only [lowerExpr, bind_ok, typed_ok] at run
      obtain ⟨_, _, first, _, _, each, _, _, growth, rfl, rfl⟩ := run
      exact .call (lowersExpr_of_run callee first) (lowersPlain_of_run args each) growth
  | .unary _ _ arg, _, _, _, run => by
      simp only [lowerExpr, bind_ok, operator_ok, typed_ok] at run
      obtain ⟨_, _, ⟨known, rfl⟩, _, _, first, rfl, rfl⟩ := run
      exact .unary known (lowersExpr_of_run arg first)
  | .update _ _ _ target, _, _, _, run => by
      simp only [lowerExpr, bind_ok, typed_ok] at run
      obtain ⟨_, _, first, rfl, rfl⟩ := run
      exact .update (lowersTarget_of_run target first)
  | .binary _ _ lhs rhs, _, _, _, run => by
      simp only [lowerExpr, bind_ok, operator_ok, typed_ok] at run
      obtain ⟨_, _, ⟨known, rfl⟩, _, _, first, _, _, second, rfl, rfl⟩ := run
      exact .binary known (lowersExpr_of_run lhs first) (lowersExpr_of_run rhs second)
  | .logical _ _ lhs rhs, _, _, _, run => by
      simp only [lowerExpr, bind_ok, operator_ok, typed_ok] at run
      obtain ⟨_, _, ⟨known, rfl⟩, _, _, first, _, _, second, rfl, rfl⟩ := run
      exact .logical known (lowersExpr_of_run lhs first) (lowersExpr_of_run rhs second)
  | .assign _ _ target value, _, _, _, run => by
      rw [lowerExpr, bind_ok] at run
      obtain ⟨_, _, first, run⟩ := run
      obtain ⟨known, rfl⟩ := operator_ok.1 first
      split at run
      · exact absurd run reject_ok
      · simp only [bind_ok, typed_ok] at run
        obtain ⟨_, _, first, _, _, second, rfl, rfl⟩ := run
        exact .assign known (lowersTarget_of_run target first) (lowersExpr_of_run value second)
  | .conditional _ test yes no, _, _, _, run => by
      simp only [lowerExpr, bind_ok, typed_ok] at run
      obtain ⟨_, _, first, _, _, second, _, _, third, rfl, rfl⟩ := run
      exact .conditional (lowersExpr_of_run test first) (lowersExpr_of_run yes second)
        (lowersExpr_of_run no third)
  | .pattern _, _, _, _, run | .odd .., _, _, _, run => by
      rw [lowerExpr] at run
      exact absurd run reject_ok

theorem lowersTarget_of_run : ∀ (e : Expr) {before after : State} {result : Ir.Expr},
    lowerTarget e declared before = .ok (result, after) →
      LowersTarget declared e before result after
  | .ident span name, before, _, _, run => by
      rw [lowerTarget] at run
      obtain ⟨rfl, rfl⟩ := nameUse_ok.1 run
      exact .ident span name before
  | .member _ object _, _, _, _, run => by
      simp only [lowerTarget, bind_ok, typed_ok] at run
      obtain ⟨_, _, first, rfl, rfl⟩ := run
      exact .member (lowersExpr_of_run object first)
  | .index _ object key, _, _, _, run => by
      simp only [lowerTarget, bind_ok, typed_ok] at run
      obtain ⟨_, _, first, _, _, second, rfl, rfl⟩ := run
      exact .index (lowersExpr_of_run object first) (lowersExpr_of_run key second)
  | .number .., _, _, _, run | .string .., _, _, _, run | .bool .., _, _, _, run
  | .null _, _, _, _, run | .template .., _, _, _, run | .paren .., _, _, _, run
  | .typed .., _, _, _, run | .array .., _, _, _, run | .object .., _, _, _, run
  | .call .., _, _, _, run | .unary .., _, _, _, run | .update .., _, _, _, run
  | .binary .., _, _, _, run | .logical .., _, _, _, run | .assign .., _, _, _, run
  | .conditional .., _, _, _, run | .pattern _, _, _, _, run | .odd .., _, _, _, run => by
      simp only [lowerTarget] at run
      exact absurd run reject_ok

theorem lowersPlain_of_run {span : Span} {cause : Cause} :
    ∀ (list : List (Option Expr)) {before after : State} {result : List Ir.Expr},
      lowerPlain span cause list declared before = .ok (result, after) →
        LowersPlain declared list before result after
  | [], before, _, _, run => by
      rw [lowerPlain, pure_ok] at run
      obtain ⟨rfl, rfl⟩ := run
      exact .nil before
  | none :: _, _, _, _, run => by
      rw [lowerPlain] at run
      exact absurd run reject_ok
  | some e :: rest, _, _, _, run => by
      simp only [lowerPlain, bind_ok, pure_ok] at run
      obtain ⟨_, _, first, _, _, others, rfl, rfl⟩ := run
      exact .cons (lowersExpr_of_run e first) (lowersPlain_of_run rest others)

theorem lowersProperties_of_run {span : Span} :
    ∀ (list : List (Option (Property Expr))) {before after : State}
      {result : List (String × Ir.Expr)},
      lowerProperties span list declared before = .ok (result, after) →
        LowersProperties declared list before result after
  | [], before, _, _, run => by
      rw [lowerProperties, pure_ok] at run
      obtain ⟨rfl, rfl⟩ := run
      exact .nil before
  | none :: _, _, _, _, run => by
      rw [lowerProperties] at run
      exact absurd run reject_ok
  | some ⟨_, _, _, value⟩ :: rest, _, _, _, run => by
      simp only [lowerProperties, unless_ok, bind_ok, plainKey_ok, pure_ok] at run
      obtain ⟨rfl, _, _, ⟨rfl, rfl⟩, _, _, first, _, _, others, rfl, rfl⟩ := run
      exact .cons (lowersExpr_of_run value first) (lowersProperties_of_run rest others)

end

theorem lowersPart_of_run {part : Option Expr} {result : Option Ir.Expr}
    (run : part.mapM lowerExpr declared before = .ok (result, after)) :
    LowersPart declared part before result after := by
  rcases mapM_option_ok.1 run with ⟨rfl, rfl, rfl⟩ | ⟨e, _, rfl, rfl, first⟩
  · exact .none before
  · exact .some (lowersExpr_of_run e first)

theorem lowersDeclarators_of_run : ∀ (declarators : List Declarator) {before after : State}
    {list : List Ir.Declarator}, lowerDeclarators declarators declared before = .ok (list, after) →
      LowersDeclarators declared declarators before list after
  | [], before, _, _, run => by
      rw [lowerDeclarators, pure_ok] at run
      obtain ⟨rfl, rfl⟩ := run
      exact .nil before
  | _ :: rest, _, _, _, run => by
      simp only [lowerDeclarators, bind_ok, plainName_ok, read_ok, get_ok, freshNode_ok, modify_ok,
        pure_ok] at run
      obtain ⟨_, _, ⟨named, rfl⟩, _, _, init, _, _, ⟨rfl, rfl⟩, _, _, ⟨rfl, rfl⟩, _, _, ⟨rfl, rfl⟩,
        _, _, rfl, _, _, others, rfl, rfl⟩ := run
      exact .cons named (lowersPart_of_run init) (lowersDeclarators_of_run rest others)

theorem lowersForLeft_of_run {element : CType} {left : ForLeft} {result : Ir.ForBinding}
    (run : lowerForLeft element left declared before = .ok (result, after)) :
    LowersForLeft declared element left before result after := by
  unfold lowerForLeft at run
  split at run
  · simp only [bind_ok, plainName_ok, freshNode_ok, modify_ok, pure_ok] at run
    obtain ⟨_, _, ⟨named, rfl⟩, _, _, ⟨rfl, rfl⟩, _, _, rfl, rfl, rfl⟩ := run
    exact .declare before named
  · exact absurd run reject_ok
  · exact absurd run reject_ok
  next e _ =>
    simp only [bind_ok, pure_ok] at run
    obtain ⟨_, _, first, rfl, rfl⟩ := run
    exact .target (lowersTarget_of_run e first)

theorem lowersStart_of_run {init : Option ForInit} {result : Option Ir.ForInit}
    (run : init.mapM lowerForInit declared before = .ok (result, after)) :
    LowersStart declared init before result after := by
  rcases mapM_option_ok.1 run with ⟨rfl, rfl, rfl⟩ | ⟨init, _, rfl, rfl, start⟩
  · exact .none before
  · cases init with
    | declare declarators =>
      simp only [lowerForInit, bind_ok, pure_ok] at start
      obtain ⟨_, _, declares, rfl, rfl⟩ := start
      exact .declare (lowersDeclarators_of_run declarators declares)
    | evaluate e =>
      simp only [lowerForInit, bind_ok, pure_ok] at start
      obtain ⟨_, _, first, rfl, rfl⟩ := start
      exact .evaluate (lowersExpr_of_run e first)

mutual

/-- Lowering a statement that succeeds is a derivation. -/
theorem lowersStmt_of_run : ∀ (s : Stmt) {before after : State} {result : Ir.Stmt},
    lowerStmt s declared before = .ok (result, after) →
      LowersStmt declared s before result after
  | .declaration _ declarators, _, _, _, run => by
      simp only [lowerStmt, bind_ok, placed_ok] at run
      obtain ⟨_, _, declares, rfl, rfl⟩ := run
      exact .declaration (lowersDeclarators_of_run declarators declares)
  | .expression _ e, _, _, _, run => by
      simp only [lowerStmt, bind_ok, placed_ok] at run
      obtain ⟨_, _, first, rfl, rfl⟩ := run
      exact .expression (lowersExpr_of_run e first)
  | .returnStmt .., _, _, _, run => by
      simp only [lowerStmt, bind_ok, placed_ok] at run
      obtain ⟨_, _, first, rfl, rfl⟩ := run
      exact .returnStmt (lowersPart_of_run first)
  | .ifThen _ test body, _, _, _, run => by
      simp only [lowerStmt, bind_ok, inScope_ok, placed_ok] at run
      obtain ⟨_, _, head, _, _, ⟨_, inside, rfl⟩, rfl, rfl⟩ := run
      exact .ifThen (lowersExpr_of_run test head) (lowersStmt_of_run body inside)
  | .ifElse _ test body otherwise, _, _, _, run => by
      simp only [lowerStmt, bind_ok, inScope_ok, placed_ok] at run
      obtain ⟨_, _, head, _, _, ⟨_, yes, rfl⟩, _, _, ⟨_, no, rfl⟩, rfl, rfl⟩ := run
      exact .ifElse (lowersExpr_of_run test head) (lowersStmt_of_run body yes)
        (lowersStmt_of_run otherwise no)
  | .whileLoop _ test body, _, _, _, run => by
      simp only [lowerStmt, bind_ok, inScope_ok, placed_ok] at run
      obtain ⟨_, _, head, _, _, ⟨_, inside, rfl⟩, rfl, rfl⟩ := run
      exact .whileLoop (lowersExpr_of_run test head) (lowersStmt_of_run body inside)
  | .doLoop _ body test, _, _, _, run => by
      simp only [lowerStmt, bind_ok, inScope_ok, placed_ok] at run
      obtain ⟨_, _, ⟨_, inside, rfl⟩, _, _, tail, rfl, rfl⟩ := run
      exact .doLoop (lowersStmt_of_run body inside) (lowersExpr_of_run test tail)
  | .forLoop _ _ _ _ body, _, _, _, run => by
      simp only [lowerStmt, bind_ok, inScope_ok, placed_ok, pure_ok] at run
      obtain ⟨_, _, ⟨_, ⟨_, _, start, _, _, head, _, _, step, _, _, ⟨_, inside, rfl⟩, rfl, rfl⟩,
        rfl⟩, rfl, rfl⟩ := run
      exact .forLoop (lowersStart_of_run start) (lowersPart_of_run head) (lowersPart_of_run step)
        (lowersStmt_of_run body inside)
  | .forOf _ _ _ right body, _, _, _, run => by
      rw [lowerStmt, unless_ok] at run
      simp only [bind_ok, inScope_ok, placed_ok, pure_ok, get_ok] at run
      obtain ⟨rfl, _, _, ⟨_, ⟨_, _, first, _, _, ⟨rfl, rfl⟩, _, _, head, _, _, ⟨_, inside, rfl⟩,
        rfl, rfl⟩, rfl⟩, rfl, rfl⟩ := run
      exact .forOf (lowersExpr_of_run right first) (lowersForLeft_of_run head)
        (lowersStmt_of_run body inside)
  | .forIn _ _ right body, _, _, _, run => by
      simp only [lowerStmt, bind_ok, inScope_ok, placed_ok, pure_ok] at run
      obtain ⟨_, _, ⟨_, ⟨_, _, first, _, _, head, _, _, ⟨_, inside, rfl⟩, rfl, rfl⟩, rfl⟩,
        rfl, rfl⟩ := run
      exact .forIn (lowersExpr_of_run right first) (lowersForLeft_of_run head)
        (lowersStmt_of_run body inside)
  | .switchOn _ discriminant cases, _, _, _, run => by
      simp only [lowerStmt, bind_ok, inScope_ok, placed_ok] at run
      obtain ⟨_, _, head, _, _, ⟨_, each, rfl⟩, rfl, rfl⟩ := run
      exact .switchOn (lowersExpr_of_run discriminant head) (lowersCases_of_run cases each)
  | .breakStmt .., _, _, _, run | .continueStmt .., _, _, _, run => by
      rw [lowerStmt, guard_ok, placed_ok] at run
      obtain ⟨rfl, rfl, rfl⟩ := run
      constructor
  | .emptyStmt span, before, _, _, run => by
      rw [lowerStmt, placed_ok] at run
      obtain ⟨rfl, rfl⟩ := run
      exact .emptyStmt span before
  | .block _ body, _, _, _, run => by
      simp only [lowerStmt, bind_ok, inScope_ok, placed_ok] at run
      obtain ⟨_, _, ⟨_, all, rfl⟩, rfl, rfl⟩ := run
      exact .block (lowersStmts_of_run body all)
  | .importFrom span names source, before, _, _, run => by
      simp only [lowerStmt, bind_ok, modify_ok, placed_ok] at run
      obtain ⟨_, _, rfl, rfl, rfl⟩ := run
      exact .importFrom span names source before
  | .typeOnly _, _, _, _, run | .odd .., _, _, _, run => by
      rw [lowerStmt] at run
      exact absurd run reject_ok

theorem lowersStmts_of_run : ∀ (body : List Stmt) {before after : State} {result : List Ir.Stmt},
    lowerStmts body declared before = .ok (result, after) →
      LowersStmts declared body before result after
  | [], before, _, _, run => by
      rw [lowerStmts, pure_ok] at run
      obtain ⟨rfl, rfl⟩ := run
      exact .nil before
  | first :: rest, _, _, _, run => by
      rw [lowerStmts] at run
      split at run
      next isTypeOnly =>
        cases first with
        | typeOnly span => exact .typeOnly (lowersStmts_of_run rest run)
        | _ => cases isTypeOnly
      next =>
        simp only [bind_ok, pure_ok] at run
        obtain ⟨_, _, start, _, _, others, rfl, rfl⟩ := run
        exact .cons (lowersStmt_of_run first start) (lowersStmts_of_run rest others)

theorem lowersCases_of_run : ∀ (cases : List (Case Stmt)) {before after : State}
    {result : List (Ir.Clause Ir.Stmt)}, lowerCases cases declared before = .ok (result, after) →
      LowersCases declared cases before result after
  | [], before, _, _, run => by
      rw [lowerCases, pure_ok] at run
      obtain ⟨rfl, rfl⟩ := run
      exact .nil before
  | ⟨_, body⟩ :: rest, _, _, _, run => by
      simp only [lowerCases, bind_ok, pure_ok] at run
      obtain ⟨_, _, head, _, _, inside, _, _, others, rfl, rfl⟩ := run
      exact .cons (lowersPart_of_run head) (lowersStmts_of_run body inside)
        (lowersCases_of_run rest others)

end

theorem lowersParams_of_run : ∀ (params : List Param) {before after : State}
    {list : List Ir.Param}, lowerParams params declared before = .ok (list, after) →
      LowersParams declared params before list after
  | [], before, _, _, run => by
      rw [lowerParams, pure_ok] at run
      obtain ⟨rfl, rfl⟩ := run
      exact .nil before
  | _ :: rest, _, _, _, run => by
      simp only [lowerParams, bind_ok, plainName_ok, read_ok, freshId_ok, modify_ok, pure_ok] at run
      obtain ⟨_, _, ⟨named, rfl⟩, _, _, ⟨rfl, rfl⟩, _, _, ⟨rfl, rfl⟩, _, _, rfl, _, _, others, rfl,
        rfl⟩ := run
      exact .cons named (lowersParams_of_run rest others)

theorem lowersFunction_of_run {f : Function} {result : Option Ir.Function}
    (run : lowerFunction f declared before = .ok (result, after)) :
    LowersFunction declared f before result after := by
  cases named : f.name with
  | none =>
    simp only [lowerFunction, named] at run
    exact absurd run reject_ok
  | some name =>
    cases hasBody : f.body with
    | none =>
      simp only [lowerFunction, named, hasBody, bind_ok, modify_ok, pure_ok] at run
      obtain ⟨_, _, rfl, rfl, rfl⟩ := run
      exact .declaration before named hasBody
    | some body =>
      simp only [lowerFunction, named, hasBody, bind_ok, modify_ok, unless_ok, inScope_ok, read_ok,
        freshNode_ok, pure_ok] at run
      obtain ⟨_, _, rfl, isPlain, noRest, _, _, ⟨_, ⟨_, _, rfl, _, _, params, _, _, all, rfl, rfl⟩,
        rfl⟩, _, _, ⟨rfl, rfl⟩, _, _, ⟨rfl, rfl⟩, rfl, rfl⟩ := run
      exact .definition named hasBody isPlain noRest (lowersParams_of_run f.params params)
        (lowersStmts_of_run body all)

/-- Lowering a script that succeeds is a derivation. -/
theorem lowersItems_of_run : ∀ (items : List Item) {before after : State} {module : Ir.Module},
    lowerItems items declared before = .ok (module, after) →
      LowersItems declared items before module after
  | [], before, _, _, run => by
      rw [lowerItems, pure_ok] at run
      obtain ⟨rfl, rfl⟩ := run
      exact .nil before
  | .function _ :: rest, _, _, _, run => by
      simp only [lowerItems, bind_ok, pure_ok] at run
      obtain ⟨_, _, first, _, _, others, rfl, rfl⟩ := run
      exact .function (lowersFunction_of_run first) (lowersItems_of_run rest others)
  | .exportedVariables _ declarators :: rest, _, _, _, run => by
      simp only [lowerItems, bind_ok, placed_ok, pure_ok] at run
      obtain ⟨_, _, ⟨_, _, declares, rfl, rfl⟩, _, _, others, rfl, rfl⟩ := run
      exact .exportedVariables (.declaration (lowersDeclarators_of_run declarators declares))
        (lowersItems_of_run rest others)
  | .exportedOther _ :: _, _, _, _, run => by
      rw [lowerItems] at run
      exact absurd run reject_ok
  | .statement s :: rest, _, _, _, run => by
      rw [lowerItems] at run
      split at run
      next isTypeOnly =>
        cases s with
        | typeOnly span => exact .typeOnly (lowersItems_of_run rest run)
        | _ => cases isTypeOnly
      next =>
        simp only [bind_ok, pure_ok] at run
        obtain ⟨_, _, first, _, _, others, rfl, rfl⟩ := run
        exact .statement (lowersStmt_of_run s first) (lowersItems_of_run rest others)
  | .interface .. :: rest, _, _, _, run => by
      rw [lowerItems] at run
      exact .interface (lowersItems_of_run rest run)
  | .typeAlias .. :: rest, _, _, _, run => by
      rw [lowerItems] at run
      exact .typeAlias (lowersItems_of_run rest run)

end ScriptToC.Lowering
