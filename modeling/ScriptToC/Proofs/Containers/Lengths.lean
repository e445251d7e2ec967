import ScriptToC.Proofs.Containers.Soundness
import ScriptToC.Proofs.Emission.Occurrences
import ScriptToC.Proofs.Runtime.Backing

/-!
# The lengths of fixed arrays

A variable that is declared with an array literal, without an annotation, is a fixed array of as
many elements as the literal has, unless a call makes it grow. This number is trusted from then on:
`length` is printed as it, and a loop over the array makes that many rounds. An assignment of a
literal is only rejected if the literal has more elements.

So a variable holds an array of the length of its type after every sequence of assignments only if
no statement assigns a shorter literal to it, and no copy comes from a variable of another type
(`fixedArrays_filled_iff`).
-/

set_option autoImplicit false

namespace ScriptToC

open Ir (Part)

/-- What is on the heap is no fixed array. -/
theorem CType.promoted_ne_fixedArray {type element : CType} {capacity : Nat} {grown : Bool}
    (settled : type.onHeap = type) : type.promoted grown ≠ .fixedArray element capacity := by
  cases type with
  | array element capacity dynamic =>
    cases dynamic with
    | false => cases settled
    | true => cases grown <;> rintro ⟨⟩
  | _ => cases grown <;> rintro ⟨⟩

/-! ## Assignments -/

namespace Ir

/-- The elements of an array literal. -/
def Expr.elements? : Expr → Option (List Expr)
  | .array _ elements => some elements
  | _ => none

/-- What a part gives to a place: a variable gets its initializer, and the target of an assignment
its value. Literals are assigned by statements only. -/
def Part.gives? : Part → Option Store
  | expr (.assign _ none target value) => if value.isLiteral then none else some ⟨target.id, value⟩
  | part => part.assigns?

theorem Part.gives?_statement {s : Stmt} {store : Store}
    (gives : (Part.stmt s).gives? = some store) :
    ∃ node inner target value, s = .expression node (.assign inner none target value) ∧
      store = ⟨target.id, value⟩ := by
  cases s with
  | expression node e =>
    cases e with
    | assign inner op target value =>
      cases op with
      | none =>
        cases gives
        exact ⟨node, inner, target, value, rfl, rfl⟩
      | some op => cases gives
    | _ => cases gives
  | _ => cases gives

theorem Part.gives?_expr {e : Expr} {store : Store} (gives : (Part.expr e).gives? = some store) :
    ∃ inner target value, e = .assign inner none target value ∧ store = ⟨target.id, value⟩ ∧
      value.isLiteral = false := by
  cases e with
  | assign inner op target value =>
    cases op with
    | none =>
      rw [gives?] at gives
      split at gives
      next => cases gives
      next noLiteral =>
        cases gives
        exact ⟨inner, target, value, rfl, rfl, Bool.eq_false_iff.2 noLiteral⟩
    | some op => cases gives
  | _ => cases gives

end Ir

namespace Lowering

open Source

variable {declared : Declared} {state : State} {known : List Part}

/-- How many elements the arrays in variables have, as far as this is known. -/
abbrev Counts := BindingId → Option Nat

namespace State

variable (state)

/-- How many elements a value has: a literal has those that are written, and a variable those of its
array. Nothing is known of other values. -/
def countOf (counts : Counts) (value : Ir.Expr) : Option Nat :=
  match value.elements? with
  | some elements => some elements.length
  | none => (state.bindingOf? value.id).bind counts

/-- The counts after an assignment. -/
def assign (counts : Counts) (store : Ir.Store) : Counts :=
  match state.bindingOf? store.place with
  | some binding => Function.update counts binding (state.countOf counts store.value)
  | none => counts

/-- The capacity of a variable that is a fixed array. -/
def capacity? (binding : BindingId) : Option Nat :=
  match state.bindings[binding]? with
  | some (.array _ capacity false) => some capacity
  | _ => none

/-- The fixed arrays have as many elements as their types say. -/
def Filled (counts : Counts) : Prop :=
  ∀ binding, ∀ capacity ∈ state.capacity? binding, ∀ count ∈ counts binding, count = capacity

/-- Every literal that is assigned to a fixed array has as many elements as its type says. -/
def LiteralsFill (parts : List Part) : Prop :=
  ∀ part ∈ parts, ∀ store ∈ part.gives?, ∀ binding ∈ state.bindingOf? store.place,
    ∀ capacity ∈ state.capacity? binding, ∀ elements ∈ store.value.elements?,
      elements.length = capacity

/-- No statement assigns a literal to a fixed array that is longer. -/
def NoneShort (parts : List Part) : Prop :=
  ∀ part ∈ parts, part.declarator? = none → ∀ store ∈ part.gives?,
    ∀ binding ∈ state.bindingOf? store.place, ∀ capacity ∈ state.capacity? binding,
      ∀ elements ∈ store.value.elements?, ¬ elements.length < capacity

/-- Variables that are copied to fixed arrays are fixed arrays of the same length. -/
def CopiesAlike (parts : List Part) : Prop :=
  ∀ part ∈ parts, ∀ store ∈ part.gives?, ∀ binding ∈ state.bindingOf? store.place,
    ∀ capacity ∈ state.capacity? binding, ∀ other ∈ state.bindingOf? store.value.id,
      state.capacity? other = some capacity

variable {state}

instance (parts : List Part) : Decidable (state.LiteralsFill parts) :=
  List.decidableBAll _ parts

instance (parts : List Part) : Decidable (state.NoneShort parts) :=
  List.decidableBAll _ parts

instance (parts : List Part) : Decidable (state.CopiesAlike parts) :=
  List.decidableBAll _ parts

theorem capacity?_eq_some {binding : BindingId} {capacity : Nat} :
    state.capacity? binding = some capacity ↔
      ∃ element, state.bindings[binding]? = some (.fixedArray element capacity) := by
  rw [capacity?]
  split
  next found => simp [found]
  next other =>
    refine iff_of_false nofun ?_
    rintro ⟨element, found⟩
    exact other _ _ found

theorem find?_resolved_fixed {id : NodeId} {binding : BindingId} {capacity : Nat}
    (typed : (state.types.find? id).isSome = true) (carries : state.bindingOf? id = some binding)
    (fixed : state.capacity? binding = some capacity) :
    ∃ element, state.resolved.find? id = some (.fixedArray element capacity) := by
  obtain ⟨element, bound⟩ := capacity?_eq_some.1 fixed
  exact ⟨element, find?_resolved typed carries bound⟩

namespace Recorded

variable {part : Part} {store : Ir.Store} {binding : BindingId} {capacity : Nat}

/-- A part that carries a fixed array has its type at the end. -/
theorem find?_of_capacity? (recorded : state.Recorded declared known) (member : part ∈ known)
    (carries : state.bindingOf? part.id = some binding)
    (fixed : state.capacity? binding = some capacity) :
    ∃ element, state.resolved.find? part.id = some (.fixedArray element capacity) :=
  find?_resolved_fixed (recorded.binds.isSome_types member carries) carries fixed

/-- What is assigned is known, and so is the place. -/
theorem given_known (recorded : state.Recorded declared known) (closed : Ir.Closed known)
    (member : part ∈ known) (gives : part.gives? = some store) :
    .expr store.value ∈ known ∧ ∃ place ∈ known, place.id = store.place := by
  have assigned {inner : Node} {target value : Ir.Expr}
      (isKnown : .expr (.assign inner none target value) ∈ known) :
      .expr value ∈ known ∧ .expr target ∈ known :=
    ⟨recorded.inside isKnown (by simp [Ir.Expr.parts, value.expr_mem_parts]),
      recorded.inside isKnown (by simp [Ir.Expr.parts, target.expr_mem_parts])⟩
  cases part with
  | declarator d =>
    obtain ⟨value, isInit, rfl⟩ := Option.map_eq_some_iff.1 gives
    exact ⟨(recorded.each _ member).inits value isInit, _, member, rfl⟩
  | stmt s =>
    obtain ⟨node, inner, target, value, rfl, rfl⟩ := Part.gives?_statement gives
    obtain ⟨isValue, isTarget⟩ := assigned (closed _ _ member)
    exact ⟨isValue, _, isTarget, rfl⟩
  | expr e =>
    obtain ⟨inner, target, value, rfl, rfl, -⟩ := Part.gives?_expr gives
    obtain ⟨isValue, isTarget⟩ := assigned member
    exact ⟨isValue, _, isTarget, rfl⟩
  | _ => cases gives

/-- A literal carries no variable. -/
theorem bindingOf?_literal (recorded : state.Recorded declared known) {e : Ir.Expr}
    (member : .expr e ∈ known) {elements : List Ir.Expr} (literal : e.elements? = some elements) :
    state.bindingOf? e.id = none := by
  cases e with
  | array node list => exact recorded.binds.untied _ member rfl rfl
  | _ => cases literal

/-- The literal that initializes a fixed array has as many elements as its type says. -/
theorem initializer_length (recorded : state.Recorded declared known) (settled : declared.Settled)
    {source : Declarator} {d : Ir.Declarator} (member : .declarator d ∈ known)
    (initializes : state.Initializes declared source d) {init : Ir.Expr} (isInit : init ∈ d.init)
    {elements : List Ir.Expr} (literal : init.elements? = some elements) {element : CType}
    (fixed : state.resolved.find? d.node.id = some (.fixedArray element capacity)) :
    elements.length = capacity := by
  obtain ⟨-, -, typed⟩ := initializes.initialized init isInit
  have final := recorded.final_declarator member typed
  rw [fixed] at final
  cases told : annotated? declared source with
  | some type =>
    rw [told, Option.getD_some] at final
    obtain ⟨written, -, rfl⟩ : ∃ written, source.annotation = some written ∧
        typeOfExpr declared.aliases written = type := by
      obtain ⟨found, -⟩ := Option.filter_eq_some_iff.1 told
      exact Option.map_eq_some_iff.1 found
    exact absurd (Option.some.inj final).symm
      (CType.promoted_ne_fixedArray (onHeap_typeOfExpr settled written))
  | none =>
    rw [told, Option.getD_none] at final
    cases init with
    | array node list =>
      cases literal
      have inferred :=
        (recorded.each _ ((recorded.each _ member).inits _ isInit)).inferred _ rfl rfl
      rw [typeOf, inferred, Option.getD_some, inferType] at final
      cases grown : state.growsAt known d.node.id with
      | false =>
        rw [grown, CType.promoted_false] at final
        cases final
        rfl
      | true =>
        rw [grown] at final
        cases final
    | _ => cases literal

end Recorded

/-! ## Runs of assignments -/

/-- An assignment of the script. -/
def Given (parts : List Part) (store : Ir.Store) : Prop :=
  ∃ part ∈ parts, part.gives? = some store

/-- After an assignment, the count of the variable is that of the value. -/
theorem assign_self {counts : Counts} {store : Ir.Store} {binding : BindingId}
    (carries : state.bindingOf? store.place = some binding) :
    state.assign counts store binding = state.countOf counts store.value := by
  rw [State.assign, carries]
  exact Function.update_self ..

/-- The counts of other variables stay. -/
theorem assign_of_ne {counts : Counts} {store : Ir.Store} {binding : BindingId}
    (other : state.bindingOf? store.place ≠ some binding) :
    state.assign counts store binding = counts binding := by
  rw [State.assign]
  cases carries : state.bindingOf? store.place with
  | none => rfl
  | some assigned =>
    refine Function.update_of_ne ?_ ..
    rintro rfl
    exact other carries

/-- An assignment keeps the fixed arrays filled if the literals fill them and copies are alike. -/
theorem Filled.assign {parts : List Part} {counts : Counts} (filled : state.Filled counts)
    (fill : state.LiteralsFill parts) (alike : state.CopiesAlike parts) {store : Ir.Store}
    (given : Given parts store) : state.Filled (state.assign counts store) := by
  obtain ⟨part, member, gives⟩ := given
  intro binding capacity fixed count counted
  rw [Option.mem_def] at counted
  by_cases carries : state.bindingOf? store.place = some binding
  · rw [assign_self carries, countOf] at counted
    cases literal : store.value.elements? with
    | some elements =>
      rw [literal] at counted
      cases counted
      exact fill part member store gives binding carries capacity fixed elements literal
    | none =>
      rw [literal] at counted
      obtain ⟨other, copied, counted⟩ := Option.bind_eq_some_iff.1 counted
      have fixed' := alike part member store gives binding carries capacity fixed other copied
      exact filled other capacity fixed' count counted
  · rw [assign_of_ne carries] at counted
    exact filled binding capacity fixed count counted

/-- So does a run of assignments. -/
theorem Filled.run {parts : List Part} (fill : state.LiteralsFill parts)
    (alike : state.CopiesAlike parts) {run : List Ir.Store} {counts : Counts}
    (filled : state.Filled counts) (given : ∀ store ∈ run, Given parts store) :
    state.Filled (run.foldl state.assign counts) := by
  induction run generalizing counts with
  | nil => exact filled
  | cons store rest ih =>
    obtain ⟨first, others⟩ := List.forall_mem_cons.1 given
    exact ih (filled.assign fill alike first) others

/-- Literals of fixed arrays that are declared fill them, and no literal is too long. -/
def Bounded (state : State) (parts : List Part) : Prop :=
  ∀ part ∈ parts, ∀ store ∈ part.gives?, ∀ binding ∈ state.bindingOf? store.place,
    ∀ capacity ∈ state.capacity? binding, ∀ elements ∈ store.value.elements?,
      elements.length ≤ capacity ∧ (part.declarator? ≠ none → elements.length = capacity)

theorem literalsFill_iff {parts : List Part} (bounded : state.Bounded parts) :
    state.LiteralsFill parts ↔ state.NoneShort parts := by
  constructor
  · intro fill part member _ store gives binding carries capacity fixed elements literal
    rw [fill part member store gives binding carries capacity fixed elements literal]
    exact lt_irrefl capacity
  · intro long part member store gives binding carries capacity fixed elements literal
    obtain ⟨most, exact⟩ :=
      bounded part member store gives binding carries capacity fixed elements literal
    by_cases declares : part.declarator? = none
    · have notShort := long part member declares store gives binding carries capacity fixed
        elements literal
      omega
    · exact exact declares

/-- Runs of assignments keep the fixed arrays filled exactly if no literal is too short and copies
are alike. -/
theorem Recorded.filled_run_iff (recorded : state.Recorded declared known)
    (closed : Ir.Closed known) (bounded : state.Bounded known) :
    (∀ counts, state.Filled counts → ∀ run : List Ir.Store, (∀ store ∈ run, Given known store) →
      state.Filled (run.foldl state.assign counts)) ↔
      state.NoneShort known ∧ state.CopiesAlike known := by
  constructor
  · intro kept
    have keeps {counts : Counts} (filled : state.Filled counts) {part : Part}
        (member : part ∈ known) {store : Ir.Store} (gives : part.gives? = some store) :
        state.Filled (state.assign counts store) := by
      refine kept counts filled [store] fun other isStore => ?_
      obtain rfl := List.mem_singleton.1 isStore
      exact ⟨part, member, gives⟩
    constructor
    · -- A literal that is too short leaves too few elements, whatever the variable held before.
      intro part member _ store gives binding carries capacity fixed elements literal
      have filled : state.Filled fun _ => none := fun _ _ _ _ => nofun
      have count := keeps filled member gives binding capacity fixed elements.length (by
        rw [Option.mem_def, assign_self carries, countOf, literal])
      exact Nat.not_lt.2 count.ge
    · -- Variables of other types may hold any number of elements.
      intro part member store gives binding carries capacity fixed other copied
      have filled : state.Filled fun binding =>
          some ((state.capacity? binding).getD (capacity + 1)) := by
        rintro _ _ fixed _ ⟨⟩
        rw [Option.mem_def] at fixed
        rw [fixed, Option.getD_some]
      have unwritten : store.value.elements? = none := by
        obtain ⟨isValue, -⟩ := recorded.given_known closed member gives
        rw [Option.eq_none_iff_forall_not_mem]
        intro elements literal
        have uncarried := recorded.bindingOf?_literal isValue literal
        cases copied.symm.trans uncarried
      have count := keeps filled member gives binding capacity fixed _ (by
        rw [Option.mem_def, assign_self carries, countOf, unwritten, Option.mem_def.1 copied]
        rfl)
      cases type : state.capacity? other with
      | none =>
        rw [type, Option.getD_none] at count
        omega
      | some capacity' =>
        rw [type, Option.getD_some] at count
        rw [count]
  · rintro ⟨long, alike⟩ counts filled run given
    exact Filled.run ((literalsFill_iff bounded).2 long) alike filled given

end State
end Lowering

/-! ## Emitted statements -/

namespace Emit

open Ir

variable {σ : Setting} {scope : ScopeId} {w w' : Workspace} {c : CStmt} {xs : List Variable}

/-- What an assignment statement assigns may be assigned to the type of its target. -/
theorem Emits.assignable {node inner : Node} {target value : Expr}
    (emits : Emits σ scope (.expression node (.assign inner none target value)) w c xs w') :
    Assignable σ.types (σ.types target.id) value := by
  cases emits with
  | expression run =>
    simp only [expressionStatement, bind_ok, read_bind] at run
    obtain ⟨_, _, _, run⟩ := run
    have assignable := of_expr run (assignable_assignment _ (σ.types target.id) value)
    exact assignable

/-- A literal that is assigned to a fixed array is not longer. -/
theorem Assignable.length_le {types : Types} {element : CType} {capacity : Nat} {value : Expr}
    {elements : List Expr}
    (assignable : Assignable types (some (.fixedArray element capacity)) value)
    (literal : value.elements? = some elements) : elements.length ≤ capacity := by
  cases value with
  | array node list =>
    cases literal
    rcases assignable with plain | ⟨-, _, ⟨⟩, takes⟩
    · obtain ⟨noLiteral, -⟩ := plain _ List.mem_cons_self
      cases noLiteral
    · exact of_decide_eq_true takes
  | _ => cases literal

/-- The `length` of a fixed array is printed as its capacity. -/
theorem length_fixedArray {types : Types} {node : Node} {object : Expr} {element : CType}
    {capacity : Nat} (fixed : typeOf types object = .fixedArray element capacity) :
    Gives (exprText types (.member node object "length")) (· = toString capacity) := by
  rw [exprText]
  refine Gives.bind (P := fun _ => True) (fun _ _ _ _ => trivial) fun _ _ => ?_
  simp only [fixed]
  exact gives_pure rfl

/-- What a loop runs over has a type, and if it is a fixed array, the loop makes as many rounds as
its capacity says. -/
theorem Emits.forFixed {node : Node} {left : ForBinding} {right : Expr} {body : Stmt}
    (emits : Emits σ scope (.forOf node left right body) w c xs w') :
    (σ.types right.id).isSome = true ∧ ∀ element capacity,
      σ.types right.id = some (.fixedArray element capacity) →
        ∃ counter array cast target statements,
          c = .forFixed counter capacity array cast target statements := by
  cases emits with
  | forOf known head loop =>
    refine ⟨Option.isSome_iff_exists.2 ⟨_, known⟩, fun element capacity fixed => ?_⟩
    cases fixed.symm.trans known
    exact ⟨_, _, _, _, _, rfl⟩

end Emit

namespace Lowering

open Source

/-- In what is emitted, no literal is longer than the fixed array that it is assigned to, and one
that is declared has its length. -/
theorem State.Recorded.bounded {declared : Declared} {state : State} {known : List Part}
    {marker : String} {tokens : List Token} {sources : List Declarator}
    (recorded : state.Recorded declared known) (closed : Ir.Closed known)
    (settled : declared.Settled) (pairs : state.Pairs declared sources known)
    (emitted : Emit.AllEmittedIn ⟨state.resolved.find?, marker⟩ known tokens) :
    state.Bounded known := by
  intro part member store gives binding carries capacity fixed elements literal
  obtain ⟨-, place, isPlace, same⟩ := recorded.given_known closed member gives
  rw [Option.mem_def, ← same] at carries
  obtain ⟨element, typed⟩ := recorded.find?_of_capacity? isPlace carries fixed
  rw [same] at typed
  cases part with
  | declarator d =>
    obtain ⟨init, isInit, rfl⟩ := Option.map_eq_some_iff.1 gives
    have stands := pairs.imp (S := fun _ d => ∃ source, state.Initializes declared source d)
      fun source _ initializes => ⟨source, initializes⟩
    obtain ⟨source, initializes⟩ :=
      (State.forall₂_right pairs).1 stands d (Ir.mem_declaratorsOf.2 member)
    have exact := recorded.initializer_length settled member initializes isInit literal typed
    exact ⟨exact.le, fun _ => exact⟩
  | stmt s =>
    obtain ⟨node, inner, target, value, rfl, rfl⟩ := Part.gives?_statement gives
    obtain ⟨_, _, _, _, _, emits, -⟩ := emitted _ member rfl
    have assignable := emits.assignable
    rw [show (Setting.mk state.resolved.find? marker).types target.id = _ from typed] at assignable
    exact ⟨assignable.length_le literal, fun absurd => (absurd rfl).elim⟩
  | expr e =>
    obtain ⟨inner, target, value, rfl, rfl, noLiteral⟩ := Part.gives?_expr gives
    cases value with
    | array => cases noLiteral
    | _ => cases literal
  | _ => cases gives

/-- Reading a fixed array goes by its capacity: `length` has this text, and a loop over the array is
emitted as one that makes this many rounds. -/
structure State.ReadsCapacity (state : State) (marker : String) (parts : List Part)
    (tokens : List Token) : Prop where
  lengths : ∀ node object, .expr (.member node object "length") ∈ parts →
    ∀ binding ∈ state.bindingOf? object.id, ∀ capacity ∈ state.capacity? binding,
      Emit.Gives (Emit.exprText state.resolved.find? (.member node object "length"))
        (· = toString capacity)
  loops : ∀ node left right body, .stmt (.forOf node left right body) ∈ parts →
    ∀ binding ∈ state.bindingOf? right.id, ∀ capacity ∈ state.capacity? binding,
      ∃ scope w counter array cast target statements w',
        Emit.stmt scope (.forOf node left right body) ⟨state.resolved.find?, marker⟩ w =
          (.ok (.forFixed counter capacity array cast target statements), w') ∧
        (CStmt.forFixed counter capacity array cast target statements).tokens ⊆ tokens

theorem State.Recorded.readsCapacity {declared : Declared} {state : State} {known : List Part}
    {marker : String} {tokens : List Token} (recorded : state.Recorded declared known)
    (emitted : Emit.AllEmittedIn ⟨state.resolved.find?, marker⟩ known tokens) :
    state.ReadsCapacity marker known tokens where
  lengths := by
    intro node object member binding carries capacity fixed
    have isObject := recorded.inside member (List.mem_cons_of_mem _ object.expr_mem_parts)
    obtain ⟨element, typed⟩ := recorded.find?_of_capacity? isObject carries fixed
    have agree := recorded.typeOf_eq object isObject
    exact Emit.length_fixedArray (Option.some.inj (agree.symm.trans typed))
  loops := by
    intro node left right body member binding carries capacity fixed
    obtain ⟨scope, w, c, xs, w', emits, inside⟩ := emitted _ member rfl
    obtain ⟨typed, rounds⟩ := emits.forFixed
    change (state.resolved.find? right.id).isSome = true at typed
    rw [State.resolved, TypeTable.find?_map, Option.isSome_map] at typed
    obtain ⟨element, isFixed⟩ := State.find?_resolved_fixed typed carries fixed
    obtain ⟨counter, array, cast, target, statements, rfl⟩ := rounds element capacity isFixed
    exact ⟨scope, w, counter, array, cast, target, statements, w', emits.run, inside⟩

/-- **Lengths of fixed arrays.** In a script that is compiled, each literal is assigned by a
statement or a declaration on its own. No literal is longer than the fixed array that it is assigned
to, and one that a variable is declared with has its length. So each literal has the length of the
array exactly if no statement assigns a shorter one. Every sequence of assignments leaves the fixed
arrays with the lengths of their types exactly if, moreover, variables that are copied to them are
fixed arrays of the same length. What `length` and loops go by is the length of the type in any
case. -/
theorem fixedArrays_filled_iff {path source marker text : String} {report : Report}
    (compiled : compileSource path source marker report = .ok text) :
    ∃ (script : Program) (lowered : Lowered) (state : State) (file : CProgram) (w : Workspace),
      report = .program script ∧ lowerProgram script = .ok lowered ∧
        lowerItems script (Declared.ofProgram script) {} = .ok (lowered.module, state) ∧
        lowered.types = state.resolved ∧
        Emit.program lowered.module ⟨lowered.types.find?, marker⟩
          { names := lowered.mentioned.foldl Names.reserve {} } = (.ok file, w) ∧
        Text.words text.toList =
          (file.preamble.flatMap fun line => Text.words line.toList) ++ spell file.tokens ∧
        Emit.Stored lowered.types.find? lowered.module.parts ∧
        state.Bounded lowered.module.parts ∧
        (state.LiteralsFill lowered.module.parts ↔ state.NoneShort lowered.module.parts) ∧
        ((∀ counts, state.Filled counts → ∀ run : List Ir.Store,
            (∀ store ∈ run, State.Given lowered.module.parts store) →
              state.Filled (run.foldl state.assign counts)) ↔
          state.NoneShort lowered.module.parts ∧ state.CopiesAlike lowered.module.parts) ∧
        state.ReadsCapacity marker lowered.module.parts file.tokens := by
  cases report with
  | program script =>
    rw [compileSource, compileProgram] at compiled
    cases run : lowerProgram script with
    | error cause =>
      rw [run] at compiled
      cases compiled
    | ok lowered =>
      rw [run] at compiled
      obtain ⟨module, state, items, rfl⟩ := lowerProgram_ok run
      have recorded := recorded_lowerItems items
      have closed := module.closed
      dsimp only at compiled
      split at compiled
      next => cases compiled
      next emitted =>
        cases compiled
        obtain ⟨file, program, same⟩ := Emit.moduleText_ok (Prod.ext emitted rfl)
        have all := Emit.program_emits_statement program
        have bounded := recorded.bounded closed (settled_ofProgram script)
          (pairs_declaredIn items) all
        have stored := Emit.stored_of_emit (bare_lowerItems items) emitted
        exact ⟨script, _, state, file, _, rfl, run, items, rfl, program, same, stored, bounded,
          State.literalsFill_iff bounded, recorded.filled_run_iff closed bounded,
          recorded.readsCapacity all⟩
  | _ => cases compiled

/-- A fixed array is assigned to again: `let xs = [1, 2];`, `xs = [3, 4];` and
`for (const x of xs) console.log(xs.length);`. -/
def refilledArray : Program :=
  [.statement (.declaration ⟨0, 16⟩ [⟨⟨4, 15⟩, some "xs", none, some (.array ⟨9, 15⟩
      [some (.number ⟨10, 11⟩ (some ⟨1, 0⟩) "1"), some (.number ⟨13, 14⟩ (some ⟨2, 0⟩) "2")])⟩]),
    .statement (.expression ⟨17, 29⟩ (.assign ⟨17, 28⟩ "=" (.ident ⟨17, 19⟩ "xs")
      (.array ⟨22, 28⟩
        [some (.number ⟨23, 24⟩ (some ⟨3, 0⟩) "3"), some (.number ⟨26, 27⟩ (some ⟨4, 0⟩) "4")]))),
    .statement (.forOf ⟨30, 73⟩ false (.declare ⟨35, 42⟩ [⟨⟨41, 42⟩, some "x", none, none⟩])
      (.ident ⟨46, 48⟩ "xs") (.expression ⟨50, 73⟩ (.call ⟨50, 72⟩
        (.member ⟨50, 61⟩ (.ident ⟨50, 57⟩ "console") "log")
        [some (.member ⟨62, 71⟩ (.ident ⟨62, 64⟩ "xs") "length")])))]

/-- The text of this script. -/
def refilledSource : String :=
  "let xs = [1, 2];\nxs = [3, 4];\nfor (const x of xs) console.log(xs.length);\n"

/-- The array has two elements after every sequence of these assignments. -/
theorem fixedArrays_filled_refilledArray : ∃ (text : String) (lowered : Lowered) (state : State),
    compileSource "test.ts" refilledSource defaultMarker (.program refilledArray) = .ok text ∧
      lowerItems refilledArray (Declared.ofProgram refilledArray) {} =
        .ok (lowered.module, state) ∧
      state.capacity? 0 = some 2 ∧ state.LiteralsFill lowered.module.parts ∧
      ∀ counts, state.Filled counts → ∀ run : List Ir.Store,
        (∀ store ∈ run, State.Given lowered.module.parts store) →
          state.Filled (run.foldl state.assign counts) := by
  have accepted : (compileSource "test.ts" refilledSource defaultMarker
      (.program refilledArray)).toOption.isSome = true := by
    decide +kernel
  have checked : (match lowerItems refilledArray (Declared.ofProgram refilledArray) {} with
    | .ok (module, state) => decide (state.capacity? 0 = some 2) &&
        decide (state.NoneShort module.parts) && decide (state.CopiesAlike module.parts)
    | .error _ => false) = true := by
    decide +kernel
  cases compiled : compileSource "test.ts" refilledSource defaultMarker
      (.program refilledArray) with
  | error cause =>
    rw [compiled] at accepted
    cases accepted
  | ok text =>
    obtain ⟨script, lowered, state, _, _, same, -, items, -, -, -, -, -, fill, kept, -⟩ :=
      fixedArrays_filled_iff compiled
    cases same
    rw [items] at checked
    simp only [Bool.and_eq_true, decide_eq_true_eq] at checked
    obtain ⟨⟨capacity, long⟩, alike⟩ := checked
    exact ⟨text, lowered, state, rfl, items, capacity, fill.2 long, kept.2 ⟨long, alike⟩⟩

/-- A shorter literal is assigned: `let xs = [1, 2, 3];`, `xs = [1];` and
`console.log(xs.length);`. -/
def shortenedArray : Program :=
  [.statement (.declaration ⟨0, 19⟩ [⟨⟨4, 18⟩, some "xs", none, some (.array ⟨9, 18⟩
      [some (.number ⟨10, 11⟩ (some ⟨1, 0⟩) "1"), some (.number ⟨13, 14⟩ (some ⟨2, 0⟩) "2"),
        some (.number ⟨16, 17⟩ (some ⟨3, 0⟩) "3")])⟩]),
    .statement (.expression ⟨20, 29⟩ (.assign ⟨20, 28⟩ "=" (.ident ⟨20, 22⟩ "xs")
      (.array ⟨25, 28⟩ [some (.number ⟨26, 27⟩ (some ⟨1, 0⟩) "1")]))),
    .statement (.expression ⟨30, 53⟩ (.call ⟨30, 52⟩
      (.member ⟨30, 41⟩ (.ident ⟨30, 37⟩ "console") "log")
      [some (.member ⟨42, 51⟩ (.ident ⟨42, 44⟩ "xs") "length")]))]

/-- The array has one element in the script, and three are printed. -/
theorem shortenedArray_keeps_length :
    compileSource "test.ts" "let xs = [1, 2, 3];\nxs = [1];\nconsole.log(xs.length);\n"
        defaultMarker (.program shortenedArray) =
      .ok ("#include <stdio.h>\n#include <stdint.h>\n\nint main(void)\n\x7b\n" ++
        "    int16_t xs[3];\n    xs[0] = 1;\n    xs[1] = 2;\n    xs[2] = 3;\n" ++
        "    xs[0] = 1;\n    printf(\"%d\\n\", 3);\n    return 0;\n\x7d\n") ∧
      ∃ module state, lowerItems shortenedArray (Declared.ofProgram shortenedArray) {} =
        .ok (module, state) ∧ ¬ state.LiteralsFill module.parts := by
  refine ⟨by decide +kernel, ?_⟩
  have short : (match lowerItems shortenedArray (Declared.ofProgram shortenedArray) {} with
    | .ok (module, state) => decide (state.LiteralsFill module.parts)
    | .error _ => true) = false := by
    decide +kernel
  cases items : lowerItems shortenedArray (Declared.ofProgram shortenedArray) {} with
  | error cause =>
    rw [items] at short
    cases short
  | ok result =>
    rw [items] at short
    exact ⟨result.1, result.2, rfl, of_decide_eq_false short⟩

end Lowering
end ScriptToC
