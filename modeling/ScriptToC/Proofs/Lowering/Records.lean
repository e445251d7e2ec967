import ScriptToC.Proofs.Lowering.Promotion
import ScriptToC.Proofs.Lowering.Traces

/-!
# Recorded types

What is recorded for the parts of a script in the course of lowering (`State.Recorded`). The type of
an expression follows from the types that are recorded for the expressions in it. A use of a
variable has the type that the variable was declared with, promoted if a call that came before the
use grows the array in it: a node is taken after the nodes of everything that came before, so what
came before is read off the identities. The variable of a loop over the elements of an array has
their type.

Each step of lowering keeps this (`State.Recorded.step`), and so it holds of the parts of a script
at the end (`recorded_lowerItems`).
-/

set_option autoImplicit false

/-- The array that a call grows stands in the call. -/
theorem ScriptToC.Ir.Part.exists_of_grown {e : Expr} {id : NodeId}
    (grows : (Part.expr e).grown? = some id) :
    ∃ inner : Expr, .expr inner ∈ e.parts.tail ∧ inner.id = id := by
  cases e with
  | call node callee args =>
    cases callee with
    | member node owner property =>
      rw [grown?, Expr.growing?] at grows
      split at grows
      · cases grows
        refine ⟨owner, List.mem_append_left _ ?_, rfl⟩
        exact List.mem_cons_of_mem _ owner.expr_mem_parts
      · cases grows
    | _ => cases grows
  | _ => cases grows

namespace ScriptToC.Lowering

open Source
open Ir (Part)

variable {declared : Declared} {before after state : State}
variable {known known' parts : List Part} {part : Part} {binding : BindingId}

/-- The type of an expression depends on the types of the expressions in it only. -/
theorem inferType_congr {typeOf typeOf' : NodeId → CType} {e : Ir.Expr}
    (same : ∀ inner : Ir.Expr, .expr inner ∈ e.parts.tail → typeOf inner.id = typeOf' inner.id) :
    inferType declared typeOf e = inferType declared typeOf' e := by
  have first (e : Ir.Expr) (others : List Part) : Part.expr e ∈ e.parts ++ others :=
    List.mem_append_left _ e.expr_mem_parts
  cases e with
  | paren _ inner => exact same inner inner.expr_mem_parts
  | array _ elements =>
    cases elements with
    | nil => rfl
    | cons e rest => simp only [inferType, List.head?_cons, Option.map_some, same e (first e _)]
  | object _ properties =>
    cases properties with
    | nil => rfl
    | cons p rest => simp only [inferType, List.head?_cons, Option.map_some, same p.2 (first p.2 _)]
  | member _ object _ => simp only [inferType, same object object.expr_mem_parts]
  | index _ object key => simp only [inferType, same object (first object _)]
  | call _ callee args =>
    cases callee with
    | member node object property =>
      have inner : Part.expr object ∈ (Ir.Expr.member node object property).parts ++ _ :=
        List.mem_append_left (Ir.listParts args) (List.mem_cons_of_mem _ object.expr_mem_parts)
      simp only [inferType, same object inner]
    | _ => rfl
  | unary _ op _ => cases op <;> rfl
  | binary _ _ lhs rhs =>
    have right : Part.expr rhs ∈ lhs.parts ++ rhs.parts :=
      List.mem_append_right _ rhs.expr_mem_parts
    simp only [inferType, same lhs (first lhs _), same rhs right]
  | assign _ _ target value =>
    have right : Part.expr value ∈ target.parts ++ value.parts :=
      List.mem_append_right _ value.expr_mem_parts
    simp only [inferType, same value right]
  | conditional _ test yes no =>
    have inner : Part.expr yes ∈ test.parts ++ yes.parts ++ no.parts := by
      simp [yes.expr_mem_parts]
    simp only [inferType, same yes inner]
  | _ => rfl

namespace State

/-! ## What is recorded for a part -/

/-- The parts that were made before a node was taken. -/
def earlier (parts : List Part) (id : NodeId) : List Part :=
  parts.filter fun part => part.id < id

/-- The parts that are known before a step are earlier than the node that it takes. -/
theorem earlier_cons_next (small : ∀ part ∈ known, part.id < before.next)
    (isNew : part.id = before.next) : earlier (part :: known) part.id = known := by
  rw [earlier, List.filter_cons_of_neg (by simp), List.filter_eq_self]
  intro other member
  rw [isNew]
  exact decide_eq_true (small other member)

/-- Later parts do not matter. -/
theorem earlier_append {id : NodeId} (later : ∀ part ∈ parts, id ≤ part.id) (known : List Part) :
    earlier (parts ++ known) id = earlier known id := by
  rw [earlier, List.filter_append, List.filter_eq_nil_iff.2, List.nil_append, earlier]
  intro part member
  rw [decide_eq_true_eq, Nat.not_lt]
  exact later part member

/-- A binding that has a type from some parts: that of its declaration, promoted if one of the parts
grows the array. -/
def BoundBy (state : State) (known parts : List Part) (binding : BindingId) (type : CType) : Prop :=
  ∃ declaration ∈ known, declaration.declares = true ∧
    state.bindingOf? declaration.id = some binding ∧
    ∃ first, state.types.find? declaration.id = some first ∧
      type = first.promoted (state.isGrown parts binding)

/-- What is recorded for a part, beside the other parts that are known. -/
structure Records (declared : Declared) (state : State) (known : List Part) (part : Part) :
    Prop where
  inside : ∀ e, part = .expr e → ∀ inner, .expr inner ∈ e.parts.tail → .expr inner ∈ known
  inferred : ∀ e, part = .expr e → part.name? = none →
    state.types.find? e.id = some (inferType declared state.typeOf e)
  free : ∀ e, part = .expr e → part.name?.isSome = true → state.bindingOf? e.id = none →
    state.types.find? e.id = some .unknown
  used : ∀ e, part = .expr e → part.name?.isSome = true →
    ∀ binding, state.bindingOf? e.id = some binding →
      ∃ type, state.types.find? e.id = some type ∧
        state.BoundBy known (earlier known e.id) binding type
  inits : ∀ init ∈ part.init?, .expr init ∈ known
  loops : ∀ pair ∈ part.loop?, .declarator pair.1 ∈ known ∧ .expr pair.2 ∈ known ∧
    state.types.find? pair.1.node.id = some (elementType (state.typeOf pair.2.id))

/-- About a part that is no expression there is little to say. -/
theorem Records.of_other (other : ∀ e, part ≠ .expr e)
    (inits : ∀ init ∈ part.init?, .expr init ∈ known)
    (loops : ∀ pair ∈ part.loop?, .declarator pair.1 ∈ known ∧ .expr pair.2 ∈ known ∧
      state.types.find? pair.1.node.id = some (elementType (state.typeOf pair.2.id))) :
    state.Records declared known part where
  inside := fun e isExpr => absurd isExpr (other e)
  inferred := fun e isExpr => absurd isExpr (other e)
  free := fun e isExpr => absurd isExpr (other e)
  used := fun e isExpr => absurd isExpr (other e)
  inits := inits
  loops := loops

/-- What is recorded for all parts that are known. -/
structure Recorded (declared : Declared) (state : State) (known : List Part) : Prop where
  binds : ({} : State).Binds known state
  each : ∀ part ∈ known, state.Records declared known part

theorem Recorded.small (recorded : state.Recorded declared known) (member : part ∈ known) :
    part.id < state.next :=
  (recorded.binds.makes.fresh part member).2

/-! ## What is recorded stays -/

/-- The type of an expression stays what follows from the types in it. -/
theorem Grows.inferType_eq (grows : before.Grows after) {e : Ir.Expr}
    (small : ∀ inner : Ir.Expr, .expr inner ∈ e.parts.tail → inner.id < before.next) :
    inferType declared after.typeOf e = inferType declared before.typeOf e :=
  inferType_congr fun inner member => grows.typeOf_eq (small inner member)

theorem BoundBy.keep {type : CType} (bound : before.BoundBy known parts binding type)
    (grows : before.Grows after) (small : ∀ part ∈ known, part.id < before.next)
    (calls : ∀ part ∈ parts, ∀ object ∈ part.grown?, object < before.next)
    (more : ∀ part ∈ known, part.declares = true → part ∈ known') :
    after.BoundBy known' parts binding type := by
  obtain ⟨declaration, member, declares, carries, first, typed, eq⟩ := bound
  refine ⟨declaration, more _ member declares, declares, ?_, first, ?_, ?_⟩
  · rw [grows.carries (small _ member), carries]
  · rw [grows.typed (small _ member), typed]
  · rw [grows.isGrown_eq calls, eq]

/-- What is recorded for a part stays, when parts are made later. -/
theorem Recorded.keep (recorded : before.Recorded declared known) (parts : List Part)
    (grows : before.Grows after) (later : ∀ part ∈ parts, before.next ≤ part.id)
    (member : part ∈ known) : after.Records declared (parts ++ known) part := by
  have records := recorded.each part member
  have more : ∀ {other : Part}, other ∈ known → other ∈ parts ++ known :=
    fun isKnown => List.mem_append_right parts isKnown
  have small : ∀ e, part = .expr e → e.id < before.next := by
    rintro e rfl
    exact recorded.small member
  constructor
  · intro e isExpr inner inside
    exact more (records.inside e isExpr inner inside)
  · intro e isExpr unnamed
    rw [grows.typed (small e isExpr), records.inferred e isExpr unnamed]
    refine congrArg some (grows.inferType_eq ?_).symm
    intro inner inside
    exact recorded.small (records.inside e isExpr inner inside)
  · intro e isExpr named uncarried
    rw [grows.carries (small e isExpr)] at uncarried
    rw [grows.typed (small e isExpr), records.free e isExpr named uncarried]
  · intro e isExpr named binding carries
    rw [grows.carries (small e isExpr)] at carries
    obtain ⟨type, typed, bound⟩ := records.used e isExpr named binding carries
    refine ⟨type, (grows.typed (small e isExpr)).trans typed, ?_⟩
    have before' : ∀ other ∈ parts, e.id ≤ other.id := by
      intro other isNew
      exact Nat.le_trans (Nat.le_of_lt (small e isExpr)) (later other isNew)
    rw [earlier_append before']
    refine bound.keep grows (fun _ => recorded.small) ?_ fun _ isKnown _ => more isKnown
    intro call isEarlier
    exact recorded.binds.calls call (List.mem_of_mem_filter isEarlier)
  · exact fun init isInit => more (records.inits init isInit)
  · intro pair isLoop
    obtain ⟨isDeclared, isRight, typed⟩ := records.loops pair isLoop
    refine ⟨more isDeclared, more isRight, ?_⟩
    have rightSmall : pair.2.id < before.next := recorded.small isRight
    have declaredSmall : pair.1.node.id < before.next := recorded.small isDeclared
    rw [grows.typed declaredSmall, typed, grows.typeOf_eq rightSmall]

/-- The parts may be listed in another order. -/
theorem Records.perm (records : state.Records declared known part) (perm : known.Perm known') :
    state.Records declared known' part where
  inside := fun e isExpr inner inside => perm.mem_iff.1 (records.inside e isExpr inner inside)
  inferred := records.inferred
  free := records.free
  used := by
    intro e isExpr named binding carries
    obtain ⟨type, typed, declaration, member, declares, carries, first, recorded, eq⟩ :=
      records.used e isExpr named binding carries
    refine ⟨type, typed, declaration, perm.mem_iff.1 member, declares, carries, first, recorded, ?_⟩
    have perm' : (earlier known e.id).Perm (earlier known' e.id) := perm.filter _
    rw [eq, isGrown_perm perm']
  inits := fun init isInit => perm.mem_iff.1 (records.inits init isInit)
  loops := by
    intro pair isLoop
    obtain ⟨isDeclared, isRight, typed⟩ := records.loops pair isLoop
    exact ⟨perm.mem_iff.1 isDeclared, perm.mem_iff.1 isRight, typed⟩

/-! ## Steps -/

/-- A step that makes no part. -/
theorem Recorded.quiet (recorded : before.Recorded declared known) (grows : before.Grows after)
    (next : after.next = before.next) (same : after.bindings = before.bindings)
    (sound : after.Sound) :
    after.Recorded declared known where
  binds := by
    have binds := recorded.binds.append (grows.binds next sound same)
    rwa [List.append_nil] at binds
  each := fun _ member => recorded.keep [] grows nofun member

/-- A step that makes one part. -/
theorem Recorded.cons (recorded : before.Recorded declared known) (isNew : part.id = before.next)
    (binds : before.Binds [part] after) (records : after.Records declared (part :: known) part) :
    after.Recorded declared (part :: known) where
  binds := (recorded.binds.append binds).perm (List.perm_append_singleton part known)
  each := by
    refine List.forall_mem_cons.2 ⟨records, ?_⟩
    intro other member
    refine recorded.keep [part] binds.makes.grows ?_ member
    exact List.forall_mem_singleton.2 (Nat.le_of_eq isNew.symm)

/-- The variable that is visible under a name was declared, and it has the type that its declaration
and the calls so far give to it. -/
theorem Recorded.boundBy (recorded : state.Recorded declared known)
    (small : binding < state.bindings.size) :
    state.BoundBy known known binding ((state.bindings[binding]?).getD .unknown) := by
  have binds := recorded.binds
  obtain ⟨declaration, member, declares, carries⟩ :=
    binds.exists_declaration (Nat.zero_le _) small
  obtain ⟨_, first, carries', typed, bound⟩ := binds.declared declaration member declares
  cases carries.symm.trans carries'
  refine ⟨declaration, member, declares, carries, first, typed, ?_⟩
  rw [bound, Option.getD_some]

/-- The node of a use gets the type of the binding that is visible. -/
theorem find?_use (state : State) (name : String) (id : NodeId) :
    (state.use name id).types.find? id =
      some ((state.visible.lookup name).elim .unknown fun binding =>
        (state.bindings[binding]?).getD .unknown) := by
  rw [use]
  split
  next binding found =>
    change state.visible.lookup name = some binding at found
    rw [found]
    exact (TypeTable.find?_insert _ _ _ _).trans (if_pos rfl)
  next missing =>
    change state.visible.lookup name = none at missing
    rw [missing]
    exact (TypeTable.find?_insert _ _ _ _).trans (if_pos rfl)

theorem Recorded.use (recorded : before.Recorded declared known) (span : Span) (name : String) :
    (before.taken.use name before.next).Recorded declared
      (.expr (.ident ⟨before.next, span⟩ name) :: known) := by
  have sound := recorded.binds.sound
  have binds : before.Binds [.expr (.ident ⟨before.next, span⟩ name)]
      (before.taken.use name before.next) := (Follows.use rfl rfl span name).binds sound
  have carries : (before.taken.use name before.next).bindingOf? before.next =
      before.visible.lookup name := by
    rw [sound.bindingOf?_eq (before.taken.use_carriers name before.next), if_pos rfl]
    rfl
  have typed : (before.taken.use name before.next).types.find? before.next =
      some ((before.visible.lookup name).elim .unknown fun binding =>
        (before.bindings[binding]?).getD .unknown) := find?_use _ _ _
  have small : ∀ part ∈ known, part.id < before.next := fun _ => recorded.small
  refine recorded.cons rfl binds ?_
  constructor
  · rintro _ ⟨⟩ inner inside
    cases inside
  · rintro _ ⟨⟩ unnamed
    cases unnamed
  · rintro _ ⟨⟩ - uncarried
    rw [carries.symm.trans uncarried] at typed
    exact typed
  · rintro _ ⟨⟩ - binding carried
    have found := carries.symm.trans carried
    rw [found] at typed
    refine ⟨_, typed, ?_⟩
    have isNew : (Part.expr (.ident ⟨before.next, span⟩ name)).id = before.next := rfl
    have eq := earlier_cons_next small isNew
    change State.BoundBy _ _ (earlier _ (Part.expr (.ident ⟨before.next, span⟩ name)).id) _ _
    rw [eq]
    refine (recorded.boundBy (sound.lookup found)).keep binds.makes.grows small ?_ ?_
    · exact recorded.binds.calls
    · exact fun _ member _ => List.mem_cons_of_mem _ member
  · nofun
  · nofun

theorem Recorded.wrap (recorded : before.Recorded declared known) {inner : Ir.Expr} (span : Span)
    (inside : ∀ part ∈ inner.parts, part ∈ known) :
    (before.taken.shareType before.next inner.id).Recorded declared
      (.expr (.paren ⟨before.next, span⟩ inner) :: known) := by
  have small : inner.id < before.next := recorded.small (inside _ inner.expr_mem_parts)
  have takes := takes_shareType small span
  have binds : before.Binds [.expr (.paren ⟨before.next, span⟩ inner)]
      (before.taken.shareType before.next inner.id) :=
    (takes.follows_of_same rfl rfl rfl rfl).binds recorded.binds.sound
  refine recorded.cons rfl binds ?_
  constructor
  · rintro _ ⟨⟩ e isInside
    exact List.mem_cons_of_mem _ (inside _ isInside)
  · rintro _ ⟨⟩ -
    rw [inferType, binds.makes.grows.typeOf_eq small]
    exact (TypeTable.find?_insert _ _ _ _).trans (if_pos rfl)
  · rintro _ ⟨⟩ named
    cases named
  · rintro _ ⟨⟩ named
    cases named
  · nofun
  · nofun

/-- What is said about the bindings when an expression is put together, which may be a call. -/
theorem Sound.binds_build (sound : before.Sound) {e : Ir.Expr} (type : CType)
    (isNew : e.id = before.next) (unnamed : (Part.expr e).name? = none)
    (unwrapped : (Part.expr e).wrapped? = none)
    (calls : ∀ object ∈ (Part.expr e).grown?, object < before.next) :
    before.Binds [.expr e] ((before.afterCall e).taken.record before.next type) := by
  have start : before.Follows [] before.visible before.bindings.size [] before := .refl rfl rfl
  cases e with
  | call node callee args =>
    have growth : noteGrowth callee {} before =
        .ok ((), before.afterCall (.call node callee args)) := noteGrowth_ok.2 rfl
    have next := before.afterCall_next (.call node callee args)
    have called := (start.call growth calls node.span args type).binds sound
    rw [next] at called
    have same : node = ⟨before.next, node.span⟩ := by
      cases node
      cases isNew
      rfl
    rwa [← same] at called
  | _ =>
    rw [afterCall_of_silent _ rfl]
    exact (start.expr type isNew unnamed unwrapped rfl).binds sound

theorem Recorded.build (recorded : before.Recorded declared known) {e : Ir.Expr}
    (isNew : e.id = before.next) (unnamed : (Part.expr e).name? = none)
    (unwrapped : (Part.expr e).wrapped? = none)
    (inside : ∀ part ∈ e.parts.tail, part ∈ known) :
    ((before.afterCall e).taken.record before.next
      (inferType declared before.typeOf e)).Recorded declared (.expr e :: known) := by
  have small : ∀ inner : Ir.Expr, .expr inner ∈ e.parts.tail → inner.id < before.next :=
    fun inner isInside => recorded.small (inside _ isInside)
  have calls : ∀ object ∈ (Part.expr e).grown?, object < before.next := by
    intro object grows
    obtain ⟨inner, isInside, rfl⟩ := Ir.Part.exists_of_grown grows
    exact small inner isInside
  have binds := recorded.binds.sound.binds_build
    (inferType declared before.typeOf e) isNew unnamed unwrapped calls
  refine recorded.cons isNew binds ?_
  constructor
  · rintro _ ⟨⟩ inner isInside
    exact List.mem_cons_of_mem _ (inside _ isInside)
  · rintro _ ⟨⟩ -
    rw [binds.makes.grows.inferType_eq small, isNew]
    exact (TypeTable.find?_insert _ _ _ _).trans (if_pos rfl)
  · rintro _ ⟨⟩ named
    rw [unnamed] at named
    cases named
  · rintro _ ⟨⟩ named
    rw [unnamed] at named
    cases named
  · nofun
  · nofun

theorem Recorded.declare (recorded : before.Recorded declared known) {name : String} (type : CType)
    (declares : part.declares = true) (isNew : part.id = before.next)
    (named : part.name? = some name) (inside : ∀ init ∈ part.init?, .expr init ∈ known) :
    (before.taken.declare name type before.next).Recorded declared (part :: known) := by
  refine recorded.cons isNew (recorded.binds.sound.binds_declare type isNew declares named) ?_
  cases part with
  | param p => exact .of_other nofun nofun nofun
  | declarator d =>
    exact .of_other nofun (fun init isInit => List.mem_cons_of_mem _ (inside init isInit)) nofun
  | _ => cases declares

theorem Recorded.place (recorded : before.Recorded declared known)
    (placed : part.isPlaced = true) (isNew : part.id = before.next)
    (mentioned : ∀ name ∈ part.name?, name ∈ before.mentioned)
    (loops : ∀ pair ∈ part.loop?, .declarator pair.1 ∈ known ∧ .expr pair.2 ∈ known ∧
      before.types.find? pair.1.node.id = some (elementType (before.typeOf pair.2.id))) :
    before.taken.Recorded declared (part :: known) := by
  have start : before.Follows [] before.visible before.bindings.size [] before := .refl rfl rfl
  obtain ⟨valueless, unnamed, plain, unwrapped, silent, bare⟩ : part.isValue = false ∧
      part.variableName? = none ∧ part.declares = false ∧ part.wrapped? = none ∧
      part.grown? = none ∧ part.init? = none := by
    cases part <;> first | exact ⟨rfl, rfl, rfl, rfl, rfl, rfl⟩ | cases placed
  have makes : before.Makes [part] before.taken := by
    refine (Makes.refl before).cons before.grows_taken isNew rfl ?_ mentioned
    intro isValue
    rw [valueless] at isValue
    cases isValue
  have follows := start.idle makes isNew unnamed plain unwrapped silent rfl rfl rfl rfl
  refine recorded.cons isNew (follows.binds recorded.binds.sound) (.of_other ?_ ?_ ?_)
  · rintro e rfl
    cases placed
  · rw [bare]
    nofun
  · intro pair isLoop
    obtain ⟨isDeclared, isRight, typed⟩ := loops pair isLoop
    exact ⟨List.mem_cons_of_mem _ isDeclared, List.mem_cons_of_mem _ isRight, typed⟩

/-- What is recorded stays in every step. -/
theorem Recorded.step (step : Step declared before known after known')
    (recorded : before.Recorded declared known) : after.Recorded declared known' := by
  have sound := recorded.binds.sound
  cases step with
  | reorder perm =>
    exact ⟨recorded.binds.perm perm, fun part member =>
      (recorded.each part (perm.mem_iff.2 member)).perm perm⟩
  | mention names =>
    obtain ⟨mentioned, eq⟩ := before.foldl_mention names
    have grows := grows_mentions names before
    rw [eq] at grows ⊢
    exact recorded.quiet grows rfl rfl ⟨sound.1, sound.2, sound.3⟩
  | hide => exact recorded.quiet (before.grows_visible []) rfl rfl ⟨sound.1, sound.2, nofun⟩
  | place placed isNew mentioned loops => exact recorded.place placed isNew mentioned loops
  | use span name => exact recorded.use span name
  | wrap span inside => exact recorded.wrap span inside
  | build isNew unnamed unwrapped inside => exact recorded.build isNew unnamed unwrapped inside
  | declare type declares isNew named inside =>
    exact recorded.declare type declares isNew named inside

/-- What is recorded stays in every run. -/
theorem Recorded.run (recorded : before.Recorded declared known)
    (run : Run declared before known after known') : after.Recorded declared known' := by
  refine run.invariant (P := fun state known => state.Recorded declared known) ?_ ?_ recorded
  · exact fun step recorded => recorded.step step
  · intro before inner known known' more outside inside
    have sound := outside.binds.sound.leave inside.binds.sound more
    exact inside.quiet (inner.grows_visible _) rfl rfl sound

theorem recorded_empty : ({} : State).Recorded declared [] where
  binds := (Grows.refl _).binds rfl sound_empty rfl
  each := List.forall_mem_nil _

end State

/-- What is recorded for the parts of a script at the end. -/
theorem recorded_lowerItems {items : List Item} {module : Ir.Module}
    (run : lowerItems items declared {} = .ok (module, state)) :
    state.Recorded declared module.parts := by
  have trace := traces_lowerItems run []
  rw [List.append_nil] at trace
  exact State.recorded_empty.run trace

end ScriptToC.Lowering
