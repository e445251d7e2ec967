import ScriptToC.Compile
import ScriptToC.Proofs.Containers.Literals
import ScriptToC.Proofs.Lowering.Agreement
import ScriptToC.Proofs.Lowering.Fixpoint

/-!
# Types of elements

An array has one type for its elements, and a dictionary one for its entries. Reading goes by it:
the element of an array, the entry of a dictionary and the variable of a loop get this type
(`State.ReadsFit`). Storing does not: a literal gives the type of its first value to the container,
or that of a number if it has none, an annotation gives its own, and neither the other values nor
those that are pushed later are compared with it.

So values fit into their containers (`Ir.StoresFit`) only if what is stored is of one kind
(`State.Uniform`), and then they do (`State.Recorded.storesFit_iff`). The first value of a literal
may also lose the type that it gave to the container, if it is a use of a variable that growth
overtakes. Types are compared as they are: to a fixed array belongs its length, and an array that
moves to the heap keeps the capacity it had.
-/

set_option autoImplicit false

namespace ScriptToC

open Ir (Part)

/-- Where an array lives does not matter to the type of its elements. -/
@[simp] theorem CType.element?_promoted (type : CType) (grown : Bool) :
    (type.promoted grown).element? = type.element? := by
  cases type <;> rfl

/-! ## Stores and reads -/

namespace Ir

/-- A value that is stored has the type that the container has for its elements. -/
def Store.Fits (types : Types) (store : Store) : Prop :=
  ∃ element ∈ (types store.place).bind CType.element?, types store.value.id = some element

instance (types : Types) (store : Store) : Decidable (store.Fits types) :=
  inferInstanceAs (Decidable (∃ element ∈ (types store.place).bind CType.element?,
    types store.value.id = some element))

/-- Every value that is stored among the parts has the type that its container has for elements. -/
def StoresFit (types : Types) (parts : List Part) : Prop :=
  ∀ store ∈ storesOf parts, store.Fits types

instance (types : Types) (parts : List Part) : Decidable (StoresFit types parts) :=
  List.decidableBAll _ (storesOf parts)

theorem expr_mem_listParts : ∀ {list : List Expr} {e : Expr}, e ∈ list → .expr e ∈ listParts list
  | first :: rest, e, member => by
      rcases List.mem_cons.1 member with rfl | member
      · exact List.mem_append_left _ e.expr_mem_parts
      · exact List.mem_append_right _ (expr_mem_listParts member)

theorem expr_mem_propertyParts : ∀ {list : List (String × Expr)} {p : String × Expr}, p ∈ list →
    .expr p.2 ∈ propertyParts list
  | (_, first) :: rest, p, member => by
      rcases List.mem_cons.1 member with rfl | member
      · exact List.mem_append_left _ first.expr_mem_parts
      · exact List.mem_append_right _ (expr_mem_propertyParts member)

/-- The values in a literal stand in it. -/
theorem Expr.mem_of_contents {e value : Expr} (inside : value ∈ e.contents) :
    .expr value ∈ e.parts := by
  cases e with
  | array node elements => exact List.mem_cons_of_mem _ (expr_mem_listParts inside)
  | object node properties =>
    obtain ⟨property, member, rfl⟩ := List.mem_map.1 inside
    exact List.mem_cons_of_mem _ (expr_mem_propertyParts member)
  | _ => cases inside

/-- The container whose element an expression reads: an element at a key, an entry of a dictionary
that is named like a field, or the last element of an array. What is called `console` is taken for
the console. -/
def Expr.reads? (types : Types) : Expr → Option Expr
  | .index _ owner _ => some owner
  | .member _ owner _ => if (types owner.id).any CType.isDict then some owner else none
  | .call _ (.member _ owner property) _ =>
    if property = "pop" ∧ owner.ident? ≠ some "console" ∧ (types owner.id).any CType.isArray then
      some owner
    else
      none
  | _ => none

/-- What is read stands in the expression. -/
theorem Expr.mem_of_reads {types : Types} {e object : Expr} (reads : object ∈ e.reads? types) :
    .expr object ∈ e.parts := by
  cases e with
  | index node inner key =>
    cases reads
    exact List.mem_cons_of_mem _ (List.mem_append_left _ object.expr_mem_parts)
  | member node inner property =>
    rw [reads?] at reads
    split at reads <;> cases reads
    exact List.mem_cons_of_mem _ object.expr_mem_parts
  | call node callee args =>
    cases callee with
    | member inner owner property =>
      rw [reads?] at reads
      split at reads <;> cases reads
      exact List.mem_cons_of_mem _ (List.mem_append_left _
        (List.mem_cons_of_mem _ object.expr_mem_parts))
    | _ => cases reads
  | _ => cases reads

theorem mem_declaratorsOf {parts : List Part} {d : Declarator} :
    d ∈ declaratorsOf parts ↔ .declarator d ∈ parts := by
  refine List.mem_filterMap.trans ⟨?_, fun member => ⟨_, member, rfl⟩⟩
  rintro ⟨part, member, isDeclarator⟩
  cases part <;> cases isDeclarator
  exact member

/-- What is called and what is pushed stands in the call. -/
theorem Expr.mem_of_pushed {e : Expr} {call : Expr × List Expr} (pushed : call ∈ e.pushed?) :
    .expr call.1 ∈ e.parts ∧ ∀ value ∈ call.2, .expr value ∈ e.parts := by
  cases e with
  | call node callee args =>
    cases callee with
    | member inner owner property =>
      rw [pushed?] at pushed
      split at pushed <;> cases pushed
      refine ⟨List.mem_cons_of_mem _ (List.mem_append_left _
        (List.mem_cons_of_mem _ owner.expr_mem_parts)), fun value isArg => ?_⟩
      exact List.mem_cons_of_mem _ (List.mem_append_right _ (expr_mem_listParts isArg))
    | _ => cases pushed
  | _ => cases pushed

namespace Part

/-- What an expression stores are the arguments of a call of `push`. -/
theorem pushed_of_stores {e : Expr} {store : Store} (stores : store ∈ (Part.expr e).stores) :
    ∃ call ∈ e.pushed?, store ∈ call.2.map fun value => (⟨call.1.id, value⟩ : Store) := by
  cases pushed : e.pushed? with
  | none =>
    rw [Part.stores, pushed] at stores
    cases stores
  | some call =>
    rw [Part.stores, pushed] at stores
    exact ⟨call, rfl, stores⟩

/-- What a statement stores are the values of a literal that it assigns. -/
theorem assigned_of_stores {s : Stmt} {store : Store} (stores : store ∈ (Part.stmt s).stores) :
    ∃ node inner target value, s = .expression node (.assign inner none target value) ∧
      store.value ∈ value.contents ∧ target.id = store.place := by
  cases s with
  | expression node e =>
    cases e with
    | assign inner op target value =>
      cases op with
      | none =>
        obtain ⟨inside, isInside, rfl⟩ := List.mem_map.1 stores
        exact ⟨node, inner, target, value, rfl, isInside, rfl⟩
      | some op => cases stores
    | _ => cases stores
  | _ => cases stores

/-- What a declaration stores are the values of the literal that initializes the variable. -/
theorem mem_stores_declarator {d : Declarator} {store : Store} :
    store ∈ (Part.declarator d).stores ↔
      ∃ init ∈ d.init, ∃ value ∈ init.contents, ⟨d.node.id, value⟩ = store := by
  cases initialized : d.init with
  | none => simp [stores, assigns?, initialized]
  | some init => simp [stores, assigns?, initialized]

end Part
end Ir

namespace Lowering

open Source
open Ir (Part StoresFit storesOf)

variable {declared : Declared} {state : State} {known : List Part} {e : Ir.Expr}

namespace State

/-- What is read of a container has the type that the container has for its elements. The variable
of a loop over an array is one of its own, so that a call may move the array in it to the heap. -/
structure ReadsFit (state : State) (parts : List Part) : Prop where
  elements : ∀ e, .expr e ∈ parts → ∀ object ∈ e.reads? state.resolved.find?,
    ∀ element ∈ (state.resolved.find? object.id).bind CType.element?,
      state.resolved.find? e.id = some element
  loops : ∀ part ∈ parts, ∀ pair ∈ part.loop?, ∀ element capacity dynamic,
    state.resolved.find? pair.2.id = some (.array element capacity dynamic) →
      state.resolved.find? pair.1.node.id =
        some (element.promoted (state.growsAt parts pair.1.node.id))

/-- What is read of a variable has the type of each value that is stored into the variable. -/
structure ReadsStored (state : State) (parts : List Part) : Prop where
  elements : ∀ store ∈ storesOf parts, ∀ binding, state.bindingOf? store.place = some binding →
    ∀ e, .expr e ∈ parts → ∀ object ∈ e.reads? state.resolved.find?,
      state.bindingOf? object.id = some binding →
        state.resolved.find? e.id = state.resolved.find? store.value.id
  loops : ∀ store ∈ storesOf parts, ∀ binding, state.bindingOf? store.place = some binding →
    ∀ part ∈ parts, ∀ pair ∈ part.loop?, state.bindingOf? pair.2.id = some binding →
      ∀ element capacity dynamic,
        state.resolved.find? pair.2.id = some (.array element capacity dynamic) →
          state.resolved.find? pair.1.node.id =
            (state.resolved.find? store.value.id).map fun type =>
              type.promoted (state.growsAt parts pair.1.node.id)

/-- The values of the literal that initializes a variable are of one kind: they have the type that
the annotation of the variable has for elements, or else all have the type of the first, which is no
use of a variable that growth has overtaken. -/
def InitialUniform (declared : Declared) (state : State) (parts : List Part) (source : Declarator)
    (init : Ir.Expr) : Prop :=
  (∀ type ∈ annotated? declared source, ∀ value ∈ init.contents,
    type.element? = some (state.finalType value.id)) ∧
  (annotated? declared source = none → ∀ first ∈ init.contents.head?,
    ¬ state.Overtaken parts first.bare.id ∧
      ∀ value ∈ init.contents, state.finalType value.id = state.finalType first.id)

/-- What is stored into a container is of one kind. A value that is pushed onto a variable, or that
is in a literal assigned to one, has the type that the variable was declared to have for elements;
at any other place it has the one that the place itself has. -/
structure Uniform (declared : Declared) (state : State) (sources : List Declarator)
    (parts : List Part) : Prop where
  initial : List.Forall₂ (fun source (d : Ir.Declarator) => ∀ init ∈ d.init,
    state.InitialUniform declared parts source init) sources (Ir.declaratorsOf parts)
  ofVariables : ∀ part ∈ parts, part.declarator? = none → ∀ store ∈ part.stores,
    ∀ declaration ∈ parts, declaration.declares = true →
      state.bindingOf? declaration.id = state.bindingOf? store.place →
        (state.typeOf declaration.id).element? = some (state.finalType store.value.id)
  ofPlaces : ∀ part ∈ parts, part.declarator? = none → ∀ store ∈ part.stores,
    state.bindingOf? store.place = none →
      (state.finalType store.place).element? = some (state.finalType store.value.id)

/-- What is said of the second of two rows whose members belong together. -/
theorem forall₂_right {α β : Type} {R : α → β → Prop} {P : β → Prop} {as : List α} {bs : List β}
    (related : List.Forall₂ R as bs) : List.Forall₂ (fun _ b => P b) as bs ↔ ∀ b ∈ bs, P b := by
  induction related with
  | nil => simp
  | cons first rest ih => rw [List.forall₂_cons, ih, List.forall_mem_cons]

namespace Recorded

/-- An expression has its final type in the table. -/
theorem find?_final (recorded : state.Recorded declared known) (member : .expr e ∈ known) :
    state.resolved.find? e.id = some (state.finalType e.id) := by
  obtain ⟨type, grown, -, final⟩ := recorded.final member
  rw [finalType, final, Option.getD_some]

/-- What is read has the type of the elements. -/
theorem read_eq (recorded : state.Recorded declared known) (member : .expr e ∈ known)
    {object : Ir.Expr} (reads : object ∈ e.reads? state.resolved.find?) {element : CType}
    (holds : element ∈ (state.resolved.find? object.id).bind CType.element?) :
    state.resolved.find? e.id = some element := by
  obtain ⟨type, grown, typed, final⟩ :=
    recorded.final (recorded.inside member (Ir.Expr.mem_of_reads reads))
  have recordedType : state.typeOf object.id = type := by rw [typeOf, typed, Option.getD_some]
  have isElement : type.element? = some element := by
    rw [final, Option.bind_some, CType.element?_promoted] at holds
    exact holds
  cases e with
  | index node inner key =>
    cases reads
    rw [recorded.final_of_unnamed member rfl rfl, inferType, recordedType]
    cases type <;> cases isElement <;> rfl
  | member node inner property =>
    rw [Ir.Expr.reads?] at reads
    split at reads
    next isDict =>
      cases reads
      rw [recorded.final_of_unnamed member rfl rfl, inferType, recordedType]
      rw [final] at isDict
      cases type with
      | dict =>
        cases isElement
        rfl
      | _ => cases isDict
    next => cases reads
  | call node callee args =>
    cases callee with
    | member inner owner property =>
      rw [Ir.Expr.reads?] at reads
      split at reads
      next isPop =>
        cases reads
        obtain ⟨rfl, notConsole, isArray⟩ := isPop
        rw [recorded.final_of_unnamed member rfl rfl, inferType, if_neg notConsole, recordedType]
        rw [final] at isArray
        cases type with
        | array =>
          cases isElement
          rfl
        | _ => cases isArray
      next => cases reads
    | _ => cases reads
  | _ => cases reads

theorem readsFit (recorded : state.Recorded declared known) : state.ReadsFit known where
  elements := fun _ member _ reads _ holds => recorded.read_eq member reads holds
  loops := by
    intro part member pair isLoop element capacity dynamic isArray
    have typed := recorded.loop_eq member isLoop
    rw [finalType, isArray] at typed
    exact typed

/-- Nodes that carry the binding of one variable have one type at the end. -/
theorem find?_eq_of_carries (recorded : state.Recorded declared known) {part other : Part}
    (member : part ∈ known) (member' : other ∈ known)
    {binding : BindingId} (carries : state.bindingOf? part.id = some binding)
    (carries' : state.bindingOf? other.id = some binding) :
    state.resolved.find? part.id = state.resolved.find? other.id := by
  have small := recorded.binds.sound.carried carries
  have bound : state.bindings[binding]? = some state.bindings[binding] :=
    Array.getElem?_eq_getElem small
  rw [find?_resolved (recorded.binds.isSome_types member carries) carries bound,
    find?_resolved (recorded.binds.isSome_types member' carries') carries' bound]

/-! ## Places and values -/

/-- A value that a part other than a declaration stores is known, and so is the place. -/
theorem stored_later (recorded : state.Recorded declared known) (closed : Ir.Closed known)
    {part : Part} (member : part ∈ known) (other : part.declarator? = none) {store : Ir.Store}
    (stores : store ∈ part.stores) :
    .expr store.value ∈ known ∧ ∃ target, .expr target ∈ known ∧ target.id = store.place := by
  cases part with
  | expr e =>
    obtain ⟨call, pushed, isArg⟩ := Ir.Part.pushed_of_stores stores
    obtain ⟨value, isValue, rfl⟩ := List.mem_map.1 isArg
    obtain ⟨isObject, args⟩ := Ir.Expr.mem_of_pushed pushed
    exact ⟨recorded.inside member (args value isValue), call.1,
      recorded.inside member isObject, rfl⟩
  | stmt s =>
    obtain ⟨node, inner, target, value, rfl, isValue, place⟩ := Ir.Part.assigned_of_stores stores
    have assign := closed _ _ member
    have isTarget : Part.expr target ∈ (Ir.Expr.assign inner none target value).parts :=
      List.mem_cons_of_mem _ (List.mem_append_left _ target.expr_mem_parts)
    have isAssigned : Part.expr value ∈ (Ir.Expr.assign inner none target value).parts :=
      List.mem_cons_of_mem _ (List.mem_append_right _ value.expr_mem_parts)
    have known' := recorded.inside assign isAssigned
    exact ⟨recorded.inside known' (Ir.Expr.mem_of_contents isValue), target,
      recorded.inside assign isTarget, place⟩
  | declarator d => cases other
  | _ => cases stores

/-- The place of a value that is stored is known. -/
theorem exists_place (recorded : state.Recorded declared known) (closed : Ir.Closed known)
    {part : Part} (member : part ∈ known) {store : Ir.Store} (stores : store ∈ part.stores) :
    ∃ other ∈ known, other.id = store.place := by
  cases isOther : part.declarator? with
  | some d =>
    cases part with
    | declarator d =>
      obtain ⟨_, -, _, -, rfl⟩ := Part.mem_stores_declarator.1 stores
      exact ⟨_, member, rfl⟩
    | _ => cases isOther
  | none =>
    obtain ⟨-, target, isTarget, place⟩ := recorded.stored_later closed member isOther stores
    exact ⟨_, isTarget, place⟩

/-- A value fits exactly if it has the type of the elements of the place. -/
theorem fits_iff (recorded : state.Recorded declared known) {store : Ir.Store}
    (member : .expr store.value ∈ known) {type : CType}
    (typed : state.resolved.find? store.place = some type) :
    store.Fits state.resolved.find? ↔ type.element? = some (state.finalType store.value.id) := by
  rw [Ir.Store.Fits, typed, recorded.find?_final member, Option.bind_some]
  constructor
  · rintro ⟨element, isElement, same⟩
    rw [same]
    exact isElement
  · exact fun isElement => ⟨_, isElement, rfl⟩

/-- A literal is recorded with the type of its first value for elements. -/
theorem element?_literal (recorded : state.Recorded declared known) (member : .expr e ∈ known)
    {first : Ir.Expr} (isFirst : first ∈ e.contents.head?) :
    (state.typeOf e.id).element? = some (state.typeOf first.id) := by
  have typed (unnamed : (Part.expr e).name? = none) :
      state.typeOf e.id = inferType declared state.typeOf e := by
    rw [typeOf, (recorded.each _ member).inferred e rfl unnamed, Option.getD_some]
  cases e with
  | array node elements =>
    change elements.head? = some first at isFirst
    rw [typed rfl, inferType, isFirst]
    rfl
  | object node properties =>
    have head : properties.head?.map (·.2) = some first := List.head?_map.symm.trans isFirst
    obtain ⟨property, isHead, rfl⟩ := Option.map_eq_some_iff.1 head
    rw [typed rfl, inferType, isHead]
    rfl
  | _ => cases isFirst

/-- The values of the literal that initializes a variable fit exactly if they are of one kind. -/
theorem fits_initial_iff (recorded : state.Recorded declared known) {source : Declarator}
    {d : Ir.Declarator} (member : .declarator d ∈ known)
    (initializes : state.Initializes declared source d) {init : Ir.Expr} (isInit : init ∈ d.init) :
    (∀ value ∈ init.contents, Ir.Store.Fits state.resolved.find? ⟨d.node.id, value⟩) ↔
      state.InitialUniform declared known source init := by
  have isKnown := (recorded.each _ member).inits init isInit
  obtain ⟨-, -, typed⟩ := initializes.initialized init isInit
  have final := recorded.final_declarator member typed
  have inside : ∀ value ∈ init.contents, .expr value ∈ known := fun value isValue =>
    recorded.inside isKnown (Ir.Expr.mem_of_contents isValue)
  have each : (∀ value ∈ init.contents, Ir.Store.Fits state.resolved.find? ⟨d.node.id, value⟩) ↔
      ∀ value ∈ init.contents, ((annotated? declared source).getD (state.typeOf init.id)).element? =
        some (state.finalType value.id) := by
    refine forall₂_congr fun value isValue => ?_
    exact (recorded.fits_iff (inside value isValue) final).trans
      (by rw [CType.element?_promoted])
  rw [each, InitialUniform]
  cases annotated? declared source with
  | some type =>
    refine ⟨fun fit => ⟨?_, nofun⟩, fun uniform => uniform.1 type rfl⟩
    rintro _ ⟨⟩
    exact fit
  | none =>
    rw [Option.getD_none]
    constructor
    · refine fun fit => ⟨nofun, fun _ first isFirst => ?_⟩
      have isInside := List.mem_of_head? isFirst
      rw [recorded.element?_literal isKnown isFirst] at fit
      have same := Option.some.inj (fit first isInside)
      refine ⟨(recorded.finalType_eq_iff (inside first isInside)).1 same.symm, ?_⟩
      exact fun value isValue => (Option.some.inj (fit value isValue)).symm.trans same
    · rintro ⟨-, uniform⟩ value isValue
      obtain ⟨first, isFirst⟩ := Option.isSome_iff_exists.1
        (List.isSome_head?.2 (List.ne_nil_of_mem isValue))
      obtain ⟨timely, same⟩ := uniform rfl first isFirst
      rw [recorded.element?_literal isKnown isFirst, same value isValue,
        (recorded.finalType_eq_iff (inside first (List.mem_of_head? isFirst))).2 timely]

/-- A value that is stored into a variable later fits exactly if it has the type that the variable
was declared to have for elements. -/
theorem fits_variable_iff (recorded : state.Recorded declared known) {store : Ir.Store}
    (isValue : .expr store.value ∈ known) {target : Ir.Expr} (isTarget : .expr target ∈ known)
    (place : target.id = store.place) {declaration : Part} (isKnown : declaration ∈ known)
    (declares : declaration.declares = true)
    (same : state.bindingOf? declaration.id = state.bindingOf? store.place) :
    store.Fits state.resolved.find? ↔
      (state.typeOf declaration.id).element? = some (state.finalType store.value.id) := by
  obtain ⟨binding, first, carries, typed, -⟩ := recorded.binds.declared _ isKnown declares
  rw [← place, carries] at same
  obtain ⟨other, isOther, declares', carries', first', typed', -, final⟩ :=
    recorded.final_use isTarget same.symm
  obtain rfl := recorded.binds.declaration_unique isKnown isOther declares declares'
    (carries.trans carries'.symm)
  cases typed.symm.trans typed'
  rw [place] at final
  rw [recorded.fits_iff isValue final, CType.element?_promoted, typeOf, typed, Option.getD_some]

/-- **When stores fit.** Every value that is stored has the type that its container has for elements
exactly if what is stored is of one kind. -/
theorem storesFit_iff (recorded : state.Recorded declared known) (closed : Ir.Closed known)
    {sources : List Declarator} (pairs : state.Pairs declared sources known) :
    StoresFit state.resolved.find? known ↔ state.Uniform declared sources known := by
  have initial : (∀ d ∈ Ir.declaratorsOf known, ∀ init ∈ d.init, ∀ value ∈ init.contents,
      Ir.Store.Fits state.resolved.find? ⟨d.node.id, value⟩) ↔
        List.Forall₂ (fun source d => ∀ init ∈ d.init,
          state.InitialUniform declared known source init) sources (Ir.declaratorsOf known) := by
    rw [← forall₂_right pairs]
    exact forall₂_iff pairs fun source d member initializes =>
      forall₂_congr fun init isInit =>
        recorded.fits_initial_iff (Ir.mem_declaratorsOf.1 member) initializes isInit
  constructor
  · intro fit
    have fits {part : Part} (member : part ∈ known) {store : Ir.Store}
        (stores : store ∈ part.stores) : store.Fits state.resolved.find? :=
      fit store (List.mem_flatMap.2 ⟨part, member, stores⟩)
    refine ⟨initial.1 ?_, ?_, ?_⟩
    · intro d member init isInit value isValue
      exact fits (Ir.mem_declaratorsOf.1 member)
        (Part.mem_stores_declarator.2 ⟨init, isInit, value, isValue, rfl⟩)
    · intro part member other store stores declaration isKnown declares same
      obtain ⟨isValue, target, isTarget, place⟩ := recorded.stored_later closed member other stores
      exact (recorded.fits_variable_iff isValue isTarget place isKnown declares same).1
        (fits member stores)
    · intro part member other store stores uncarried
      obtain ⟨isValue, target, isTarget, place⟩ := recorded.stored_later closed member other stores
      have final := recorded.find?_final isTarget
      rw [place] at final
      exact (recorded.fits_iff isValue final).1 (fits member stores)
  · intro uniform store member
    obtain ⟨part, isPart, stores⟩ := List.mem_flatMap.1 member
    cases other : part.declarator? with
    | some d =>
      cases part with
      | declarator d =>
        obtain ⟨init, isInit, value, isValue, rfl⟩ := Part.mem_stores_declarator.1 stores
        exact initial.2 uniform.initial d (Ir.mem_declaratorsOf.2 isPart) init isInit value isValue
      | _ => cases other
    | none =>
      obtain ⟨isValue, target, isTarget, place⟩ := recorded.stored_later closed isPart other stores
      cases carries : state.bindingOf? store.place with
      | some binding =>
        rw [← place] at carries
        obtain ⟨declaration, isKnown, declares, carries', -⟩ := recorded.final_use isTarget carries
        have same := carries'.trans carries.symm
        rw [place] at same
        exact (recorded.fits_variable_iff isValue isTarget place isKnown declares same).2
          (uniform.ofVariables part isPart other store stores declaration isKnown declares same)
      | none =>
        have final := recorded.find?_final isTarget
        rw [place] at final
        exact (recorded.fits_iff isValue final).2
          (uniform.ofPlaces part isPart other store stores carries)

/-- If stores fit, the container that a value was stored into has the type of the value for its
elements, wherever the same variable is used. -/
theorem element?_of_storesFit (recorded : state.Recorded declared known) (closed : Ir.Closed known)
    (fit : StoresFit state.resolved.find? known) {store : Ir.Store}
    (member : store ∈ storesOf known) {binding : BindingId}
    (carries : state.bindingOf? store.place = some binding)
    (isUse : .expr e ∈ known) (carries' : state.bindingOf? e.id = some binding) :
    ∃ element ∈ (state.resolved.find? e.id).bind CType.element?,
      state.resolved.find? store.value.id = some element := by
  obtain ⟨element, holds, stored⟩ := fit store member
  obtain ⟨part, isPart, stores⟩ := List.mem_flatMap.1 member
  obtain ⟨other, isOther, place⟩ := recorded.exists_place closed isPart stores
  rw [← place] at holds carries
  rw [recorded.find?_eq_of_carries isOther isUse carries carries'] at holds
  exact ⟨element, holds, stored⟩

/-- What is read of a variable has the type of what was stored into it, if stores fit. -/
theorem readsStored (recorded : state.Recorded declared known) (closed : Ir.Closed known)
    (fit : StoresFit state.resolved.find? known) : state.ReadsStored known where
  elements := by
    intro store member binding carries e isKnown object reads carries'
    have isObject := recorded.inside isKnown (Ir.Expr.mem_of_reads reads)
    obtain ⟨element, holds, stored⟩ :=
      recorded.element?_of_storesFit closed fit member carries isObject carries'
    rw [recorded.read_eq isKnown reads holds, stored]
  loops := by
    intro store member binding carries part isKnown pair isLoop carries' element capacity dynamic
      isArray
    obtain ⟨-, isRight, -⟩ := (recorded.each part isKnown).loops pair isLoop
    obtain ⟨_, holds, stored⟩ :=
      recorded.element?_of_storesFit closed fit member carries isRight carries'
    rw [isArray] at holds
    cases holds
    rw [recorded.readsFit.loops part isKnown pair isLoop element capacity dynamic isArray, stored]
    rfl

end Recorded
end State

/-- **Types of elements.** In a script that is compiled, each array or object literal is assigned to
a place with a type that takes it, each call of `push` adds one value to a dynamic array, and
emission goes by the resolved types. What is read of a container has the type that the container has
for its elements. Every value that is stored has this type exactly if what is stored is of one kind,
and then what is read of a variable has the type of what was stored into it. -/
theorem containers_typed_iff {path source marker text : String} {report : Report}
    (compiled : compileSource path source marker report = .ok text) :
    ∃ (script : Program) (lowered : Lowered) (state : State),
      report = .program script ∧ lowerProgram script = .ok lowered ∧
        lowerItems script (Declared.ofProgram script) {} = .ok (lowered.module, state) ∧
        lowered.types = state.resolved ∧
        state.Pairs (Declared.ofProgram script) (declaredIn script) lowered.module.parts ∧
        Emit.Stored lowered.types.find? lowered.module.parts ∧
        (∀ e, .expr e ∈ lowered.module.parts →
          lowered.types.find? e.id = some (Emit.typeOf lowered.types.find? e)) ∧
        state.ReadsFit lowered.module.parts ∧
        (StoresFit lowered.types.find? lowered.module.parts ↔
          state.Uniform (Declared.ofProgram script) (declaredIn script) lowered.module.parts) ∧
        (StoresFit lowered.types.find? lowered.module.parts →
          state.ReadsStored lowered.module.parts) := by
  cases report with
  | program script =>
    rw [compileSource, compileProgram] at compiled
    cases run : lowerProgram script with
    | error cause =>
      rw [run] at compiled
      cases compiled
    | ok lowered =>
      rw [run] at compiled
      have agree := types_agree run
      obtain ⟨module, state, items, rfl⟩ := lowerProgram_ok run
      have recorded := recorded_lowerItems items
      have closed := module.closed
      have pairs := pairs_declaredIn items
      dsimp only at compiled
      split at compiled
      next => cases compiled
      next emitted =>
        have stored := Emit.stored_of_emit (bare_lowerItems items) emitted
        exact ⟨script, _, state, rfl, run, items, rfl, pairs, stored, agree, recorded.readsFit,
          recorded.storesFit_iff closed pairs, recorded.readsStored closed⟩
  | _ => cases compiled

/-- Values of one kind: `let xs = [1, 2]; xs.push(3);`,
`let names: Record<string, string> = { a: "b" };` and `console.log(xs[0], names["a"]);`. -/
def uniformStores : Program :=
  [.statement (.declaration ⟨0, 16⟩ [⟨⟨4, 15⟩, some "xs", none, some (.array ⟨9, 15⟩
      [some (.number ⟨10, 11⟩ (some ⟨1, 0⟩) "1"), some (.number ⟨13, 14⟩ (some ⟨2, 0⟩) "2")])⟩]),
    .statement (.expression ⟨17, 28⟩ (.call ⟨17, 27⟩
      (.member ⟨17, 24⟩ (.ident ⟨17, 19⟩ "xs") "push")
      [some (.number ⟨25, 26⟩ (some ⟨3, 0⟩) "3")])),
    .statement (.declaration ⟨29, 76⟩ [⟨⟨33, 75⟩, some "names",
      some (.named (.name "Record") [.string, .string]), some (.object ⟨65, 75⟩
        [some ⟨⟨67, 73⟩, false, .name "a", .string ⟨70, 73⟩ "b"⟩])⟩]),
    .statement (.expression ⟨77, 108⟩ (.call ⟨77, 107⟩
      (.member ⟨77, 88⟩ (.ident ⟨77, 84⟩ "console") "log")
      [some (.index ⟨89, 94⟩ (.ident ⟨89, 91⟩ "xs") (.number ⟨92, 93⟩ (some ⟨0, 0⟩) "0")),
        some (.index ⟨96, 106⟩ (.ident ⟨96, 101⟩ "names") (.string ⟨102, 105⟩ "a"))]))]

/-- The text of this script. -/
def uniformSource : String :=
  "let xs = [1, 2];\nxs.push(3);\nlet names: Record<string, string> = \x7b a: \"b\" \x7d;\n" ++
    "console.log(xs[0], names[\"a\"]);\n"

/-- Four values are stored, all into containers of their type. -/
theorem containers_typed_uniformStores : ∃ (text : String) (lowered : Lowered) (state : State),
    compileSource "test.ts" uniformSource defaultMarker (.program uniformStores) = .ok text ∧
      lowerProgram uniformStores = .ok lowered ∧ lowered.types = state.resolved ∧
      (storesOf lowered.module.parts).map (fun store => lowered.types.find? store.value.id) =
        [some .number, some .number, some .number, some .string] ∧
      StoresFit lowered.types.find? lowered.module.parts ∧
      state.Uniform (Declared.ofProgram uniformStores) (declaredIn uniformStores)
        lowered.module.parts ∧
      state.ReadsStored lowered.module.parts := by
  have accepted : (compileSource "test.ts" uniformSource defaultMarker
      (.program uniformStores)).toOption.isSome = true := by
    decide +kernel
  have seen : (lowerProgram uniformStores).toOption.all (fun lowered =>
      (storesOf lowered.module.parts).map (fun store => lowered.types.find? store.value.id) =
          [some .number, some .number, some .number, some .string] ∧
        StoresFit lowered.types.find? lowered.module.parts) = true := by
    decide +kernel
  cases compiled : compileSource "test.ts" uniformSource defaultMarker
      (.program uniformStores) with
  | error cause =>
    rw [compiled] at accepted
    cases accepted
  | ok text =>
    obtain ⟨script, lowered, state, same, run, -, types, -, -, -, -, iff, reads⟩ :=
      containers_typed_iff compiled
    cases same
    rw [run] at seen
    obtain ⟨stored, fit⟩ := of_decide_eq_true seen
    exact ⟨text, lowered, state, rfl, run, types, stored, fit, iff.1 fit, reads fit⟩

/-- Values of two kinds in one array: `let xs = [1, "a"]; console.log(xs[1]);`. -/
def mixedArray : Program :=
  [.statement (.declaration ⟨0, 18⟩ [⟨⟨4, 17⟩, some "xs", none, some (.array ⟨9, 17⟩
      [some (.number ⟨10, 11⟩ (some ⟨1, 0⟩) "1"), some (.string ⟨13, 16⟩ "a")])⟩]),
    .statement (.expression ⟨19, 38⟩ (.call ⟨19, 37⟩
      (.member ⟨19, 30⟩ (.ident ⟨19, 26⟩ "console") "log")
      [some (.index ⟨31, 36⟩ (.ident ⟨31, 33⟩ "xs") (.number ⟨34, 35⟩ (some ⟨1, 0⟩) "1"))]))]

/-- The text is stored into an array of numbers, and is printed as a number. -/
theorem mixedArray_mistyped :
    compileSource "test.ts" "let xs = [1, \"a\"];\nconsole.log(xs[1]);\n" defaultMarker
        (.program mixedArray) =
      .ok ("#include <stdio.h>\n#include <stdint.h>\n\nint main(void)\n\x7b\n" ++
        "    int16_t xs[2];\n    xs[0] = 1;\n    xs[1] = \"a\";\n" ++
        "    printf(\"%d\\n\", xs[1]);\n    return 0;\n\x7d\n") ∧
      ∃ lowered, lowerProgram mixedArray = .ok lowered ∧
        ¬ StoresFit lowered.types.find? lowered.module.parts := by
  refine ⟨by decide +kernel, ?_⟩
  have misfit : (lowerProgram mixedArray).toOption.any (fun lowered =>
      ¬ StoresFit lowered.types.find? lowered.module.parts) = true := by
    decide +kernel
  cases run : lowerProgram mixedArray with
  | error cause =>
    rw [run] at misfit
    cases misfit
  | ok lowered =>
    rw [run] at misfit
    exact ⟨lowered, rfl, of_decide_eq_true misfit⟩

end Lowering
end ScriptToC
