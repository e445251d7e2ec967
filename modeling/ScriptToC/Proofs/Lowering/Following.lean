import ScriptToC.Proofs.Lowering.Ties

/-!
# Following an environment

A row of steps of lowering follows an environment (`State.Follows`): it makes some parts and binds
them, the parts are tied to variables as listed, and afterwards the visible names are those of a
given environment. Each step that takes a node is such a row, of one part (`State.Takes`); rows are
put one after another, or before the part that they stand in.
-/

set_option autoImplicit false

namespace ScriptToC.Lowering

open Source
open Ir (Part)

variable {declared : Declared} {before middle after : State}
variable {parts others : List Part} {part : Part}

namespace State

/-! ## Single steps -/

section Changes

variable (state : State) (name : String) (id inner : NodeId)

theorem use_next : (state.use name id).next = state.next := by
  rw [use]
  split <;> rfl

theorem use_visible : (state.use name id).visible = state.visible := by
  rw [use]
  split <;> rfl

theorem use_bindings : (state.use name id).bindings = state.bindings := by
  rw [use]
  split <;> rfl

theorem use_carriers : (state.use name id).carriers =
    (state.visible.lookup name).elim state.carriers (state.carriers.insert id) := by
  rw [use]
  split
  next binding found =>
    change state.visible.lookup name = some binding at found
    rw [found]
    rfl
  next missing =>
    change state.visible.lookup name = none at missing
    rw [missing]
    rfl

theorem shareType_carriers : (state.shareType id inner).carriers =
    (state.bindingOf? inner).elim state.carriers (state.carriers.insert id) := by
  rw [shareType]
  cases state.bindingOf? inner <;> rfl

theorem bindingOf?_declare (type : CType) :
    (state.taken.declare name type state.next).bindingOf? state.next = some state.bindings.size :=
  Std.TreeMap.getElem?_insert_self

theorem foldl_mention (names : List String) :
    ∃ mentioned, names.foldl mention state = { state with mentioned } := by
  induction names generalizing state with
  | nil => exact ⟨_, rfl⟩
  | cons name rest ih => exact ih (state.mention name)

theorem grow_bindings (binding other : BindingId) {type : CType}
    (found : state.bindings[other]? = some type) :
    (state.grow binding).bindings[other]? =
      some (type.promoted (some binding = some other)) := by
  rw [grow, Array.getElem?_modify, found]
  split
  next same =>
    rw [decide_eq_true (congrArg some same), CType.promoted_true]
    rfl
  next differ => rw [decide_eq_false (mt Option.some_inj.1 differ), CType.promoted_false]

end Changes

/-- A step that takes the next node for a part that declares no variable. -/
structure Takes (before : State) (part : Part) (found : Option BindingId) (after : State) :
    Prop where
  makes : before.Makes [part] after
  isNew : part.id = before.next
  next : after.next = before.next + 1
  carriers : after.carriers = found.elim before.carriers (before.carriers.insert before.next)
  visible : after.visible = before.visible
  size : after.bindings.size = before.bindings.size
  plain : part.declares = false
  untied : part.variableName? = none → part.wrapped? = none → found = none
  small : before.Sound → ∀ binding ∈ found, binding < before.bindings.size
  wraps : ∀ inner ∈ part.wrapped?, inner < before.next ∧ found = before.bindingOf? inner

namespace Takes

variable {found : Option BindingId}

theorem sound (takes : before.Takes part found after) (sound : before.Sound) : after.Sound := by
  refine sound.step takes.next takes.carriers (Nat.le_of_eq takes.size.symm) ?_ ?_
  · rw [takes.size]
    exact takes.small sound
  · rw [takes.visible, takes.size]
    exact sound.seen

theorem bindingOf?_eq (takes : before.Takes part found after) (sound : before.Sound) :
    after.bindingOf? part.id = found := by
  rw [sound.bindingOf?_eq takes.carriers, if_pos takes.isNew]

/-- What the step says about bindings, if it grows no other arrays than the part does. -/
theorem binds (takes : before.Takes part found after) (sound : before.Sound)
    (calls : ∀ object ∈ part.grown?, object < before.next)
    (kept : ∀ ⦃binding : BindingId⦄ ⦃type : CType⦄, before.bindings[binding]? = some type →
      after.bindings[binding]? = some (type.promoted (before.isGrown [part] binding))) :
    before.Binds [part] after where
  makes := takes.makes
  sound := takes.sound sound
  more := Nat.le_of_eq takes.size.symm
  wraps := by
    refine List.forall_mem_singleton.2 ?_
    intro inner isInner
    obtain ⟨small, same⟩ := takes.wraps inner isInner
    refine ⟨Nat.lt_of_lt_of_le small takes.makes.grows.next, ?_⟩
    rw [takes.bindingOf?_eq sound, takes.makes.grows.carries small, same]
  calls := by
    refine List.forall_mem_singleton.2 ?_
    intro object isObject
    exact Nat.lt_of_lt_of_le (calls object isObject) takes.makes.grows.next
  untied := by
    refine List.forall_mem_singleton.2 ?_
    rw [takes.bindingOf?_eq sound]
    exact takes.untied
  kept := by
    intro binding type isBound
    rw [takes.makes.grows.isGrown_eq (List.forall_mem_singleton.2 calls)]
    exact kept isBound
  numbered := by
    rw [declaredBindings, List.filter_cons_of_neg (by rw [takes.plain]; decide), takes.size,
      Nat.sub_self]
    exact .nil
  declared := by
    refine List.forall_mem_singleton.2 fun declares => ?_
    rw [takes.plain] at declares
    cases declares

end Takes

/-- Parentheses carry what the expression inside carries. -/
theorem takes_shareType {inner : Ir.Expr} (small : inner.id < before.next) (span : Span) :
    before.Takes (.expr (.paren ⟨before.next, span⟩ inner)) (before.bindingOf? inner.id)
      (before.taken.shareType before.next inner.id) where
  makes := (Makes.refl before).cons (before.grows_shareType inner.id) rfl rfl
    (fun _ => isSome_find?_insert _ _ _) nofun
  isNew := rfl
  next := rfl
  carriers := State.shareType_carriers _ _ _
  visible := rfl
  size := rfl
  plain := rfl
  untied := nofun
  small := fun sound _ carries => sound.carried carries
  wraps := by
    rintro _ ⟨⟩
    exact ⟨small, rfl⟩

/-- A part that declares a variable gets the next binding. -/
theorem Sound.binds_declare (sound : before.Sound) {name : String} (type : CType)
    (isNew : part.id = before.next) (declares : part.declares = true)
    (named : part.name? = some name) :
    before.Binds [part] (before.taken.declare name type before.next) := by
  have size : (before.taken.declare name type before.next).bindings.size =
      before.bindings.size + 1 := Array.size_push _
  have carriers : (before.taken.declare name type before.next).carriers =
      (some before.bindings.size).elim before.carriers (before.carriers.insert before.next) := rfl
  have own : (before.taken.declare name type before.next).bindingOf? part.id =
      some before.bindings.size := by
    rw [isNew, bindingOf?_declare]
  have silent : part.grown? = none := by
    cases part <;> first | rfl | cases declares
  have unwrapped : part.wrapped? = none := by
    cases part <;> first | rfl | cases declares
  exact
    { makes := (Makes.refl before).declares type isNew named
      sound := by
        refine sound.step rfl carriers ?_ ?_ ?_
        · rw [size]
          exact Nat.le_succ _
        · rintro _ ⟨⟩
          rw [size]
          exact Nat.lt_succ_self _
        · rw [size]
          refine List.forall_mem_cons.2 ⟨Nat.lt_succ_self _, ?_⟩
          exact fun entry member => Nat.lt_succ_of_lt (sound.seen entry member)
      more := by
        rw [size]
        exact Nat.le_succ _
      wraps := by
        rw [List.forall_mem_singleton, unwrapped]
        nofun
      calls := by
        rw [List.forall_mem_singleton, silent]
        nofun
      untied := by
        rw [List.forall_mem_singleton, Part.variableName?_of_declares declares, named]
        nofun
      kept := by
        intro binding old isBound
        obtain ⟨small, -⟩ := Array.getElem?_eq_some_iff.1 isBound
        rw [isGrown_cons_of_none silent, isGrown_nil, CType.promoted_false]
        change (before.bindings.push type)[binding]? = some old
        rw [Array.getElem?_push, if_neg (Nat.ne_of_lt small)]
        exact isBound
      numbered := by
        rw [declaredBindings, List.filter_cons_of_pos declares, List.filter_nil, List.map_singleton,
          own, size, Nat.add_sub_cancel_left]
        exact .refl _
      declared := by
        refine List.forall_mem_singleton.2 fun _ => ⟨_, type, own, ?_, ?_⟩
        · rw [isNew]
          exact (TypeTable.find?_insert _ _ _ _).trans (if_pos rfl)
        · rw [isGrown_cons_of_none silent, isGrown_nil, CType.promoted_false]
          exact Array.getElem?_push_size }

end State

/-! ## Rows of steps -/

variable {env env' : Env} {start stop stop' : Nat} {ties ties' : List Tie}

/-- A row of steps makes the parts and leaves the environment behind, with the first number that is
free; the parts are tied as listed. -/
structure State.Follows (before : State) (ties : List Tie) (env : Env) (stop : Nat)
    (parts : List Part) (after : State) : Prop where
  visible : after.visible = env
  size : after.bindings.size = stop
  binds : before.Sound → before.Binds parts after
  tied : before.Sound → after.ties parts = ties

/-- A step that takes a node is a row of its own. -/
theorem State.Takes.follows {found : Option BindingId} (takes : before.Takes part found after)
    (visible : before.visible = env) (size : before.bindings.size = stop)
    (calls : ∀ object ∈ part.grown?, object < before.next)
    (kept : ∀ ⦃binding : BindingId⦄ ⦃type : CType⦄, before.bindings[binding]? = some type →
      after.bindings[binding]? = some (type.promoted (before.isGrown [part] binding))) :
    before.Follows (part.variableName?.map fun name => (name, found)).toList env stop [part]
      after where
  visible := takes.visible.trans visible
  size := takes.size.trans size
  binds := fun sound => takes.binds sound calls kept
  tied := by
    intro sound
    rw [State.ties, List.filterMap_cons, State.tie?, takes.bindingOf?_eq sound]
    cases part.variableName? <;> rfl

/-- A step that takes a node and does not change the bindings. -/
theorem State.Takes.follows_of_same {found : Option BindingId}
    (takes : before.Takes part found after) (visible : before.visible = env)
    (size : before.bindings.size = stop) (silent : part.grown? = none)
    (same : after.bindings = before.bindings) :
    before.Follows (part.variableName?.map fun name => (name, found)).toList env stop [part]
      after := by
  refine takes.follows visible size ?_ ?_
  · rw [silent]
    nofun
  · intro binding type isBound
    rw [State.isGrown_cons_of_none silent, State.isGrown_nil, CType.promoted_false, same]
    exact isBound

namespace State.Follows

theorem refl (visible : before.visible = env) (size : before.bindings.size = start) :
    before.Follows [] env start [] before where
  visible := visible
  size := size
  binds := fun sound => (Grows.refl before).binds rfl sound rfl
  tied := fun _ => rfl

/-- A step that makes no part and says nothing about bindings. -/
theorem quiet (follows : before.Follows ties env stop parts middle)
    (grows : middle.Grows after) (next : after.next = middle.next) (visible : after.visible = env')
    (same : after.bindings = middle.bindings)
    (sound : before.Sound → before.Binds parts middle → after.Sound) :
    before.Follows ties env' stop parts after where
  visible := visible
  size := (congrArg Array.size same).trans follows.size
  binds := by
    intro start
    have binds := follows.binds start
    simpa only [List.append_nil] using binds.append (grows.binds next (sound start binds) same)
  tied := by
    intro start
    exact ((follows.binds start).makes.ties_eq grows).trans (follows.tied start)

/-- What was visible before is visible again. -/
theorem leave (follows : before.Follows ties env stop parts after)
    (visible : before.visible = env') :
    before.Follows ties env' stop parts (after.leave before) :=
  follows.quiet (after.grows_leave _) rfl visible rfl fun sound binds =>
    sound.leave binds.sound binds.more

/-- No variable is visible any more. -/
theorem hidden (follows : before.Follows ties env stop parts middle) :
    before.Follows ties [] stop parts middle.hidden :=
  follows.quiet middle.grows_hidden rfl rfl rfl fun _ binds =>
    ⟨binds.sound.unused, binds.sound.carried, List.forall_mem_nil _⟩

/-- Names are mentioned. -/
theorem mentions (names : List String) (visible : before.visible = env)
    (size : before.bindings.size = start) :
    before.Follows [] env start [] (names.foldl State.mention before) := by
  obtain ⟨mentioned, eq⟩ := before.foldl_mention names
  have grows := State.grows_mentions names before
  rw [eq] at grows ⊢
  exact (refl visible size).quiet grows rfl visible rfl fun sound _ => ⟨sound.1, sound.2, sound.3⟩

theorem append (follows : before.Follows ties env stop parts middle)
    (follows' : middle.Follows ties' env' stop' others after) :
    before.Follows (ties ++ ties') env' stop' (parts ++ others) after where
  visible := follows'.visible
  size := follows'.size
  binds := by
    intro sound
    have binds := follows.binds sound
    exact binds.append (follows'.binds binds.sound)
  tied := by
    intro sound
    have binds := follows.binds sound
    have binds' := follows'.binds binds.sound
    rw [State.ties_append, binds.makes.ties_eq binds'.makes.grows, follows.tied sound,
      follows'.tied binds.sound]

/-- A part that is made after what stands in it, and listed before. -/
theorem cons (follows : before.Follows ties env stop parts middle)
    (follows' : middle.Follows ties' env' stop' [part] after) :
    before.Follows (ties' ++ ties) env' stop' (part :: parts) after where
  visible := follows'.visible
  size := follows'.size
  binds := by
    intro sound
    exact ((follows.append follows').binds sound).perm (List.perm_append_singleton part parts)
  tied := by
    intro sound
    have binds := follows.binds sound
    have binds' := follows'.binds binds.sound
    have first := follows'.tied binds.sound
    have rest := (binds.makes.ties_eq binds'.makes.grows).trans (follows.tied sound)
    change after.ties ([part] ++ parts) = _
    rw [State.ties_append, first, rest]

/-- A statement that stands under a condition or a loop. -/
theorem body {s : Ir.Stmt} (follows : before.Follows ties env stop s.parts after) :
    before.Follows ties env stop (Ir.bodyParts s.toBody) after := by
  rwa [Ir.bodyParts_toBody]

/-! ### Single parts -/

/-- A part about which the bindings say nothing. -/
theorem idle (follows : before.Follows ties env stop parts middle)
    (makes : middle.Makes [part] after) (isNew : part.id = middle.next)
    (unnamed : part.variableName? = none) (plain : part.declares = false)
    (unwrapped : part.wrapped? = none) (silent : part.grown? = none)
    (next : after.next = middle.next + 1) (carriers : after.carriers = middle.carriers)
    (visible : after.visible = middle.visible) (bindings : after.bindings = middle.bindings) :
    before.Follows ties env stop (part :: parts) after := by
  have takes : middle.Takes part none after :=
    { makes := makes
      isNew := isNew
      next := next
      carriers := carriers
      visible := visible
      size := congrArg Array.size bindings
      plain := plain
      untied := fun _ _ => rfl
      small := fun _ => nofun
      wraps := by
        rw [unwrapped]
        nofun }
  have step := follows.cons (takes.follows_of_same follows.visible follows.size silent bindings)
  rwa [unnamed] at step

/-- A statement, about which nothing is recorded. -/
theorem placed (follows : before.Follows ties env stop parts middle) {s : Ir.Stmt}
    (isNew : (Part.stmt s).id = middle.next) :
    before.Follows ties env stop (.stmt s :: parts) middle.taken :=
  follows.idle ((Makes.refl middle).placed isNew) isNew rfl rfl rfl rfl rfl rfl rfl rfl

/-- A function, whose name was mentioned. -/
theorem function (follows : before.Follows ties env stop parts middle) {f : Ir.Function}
    (isNew : (Part.function f).id = middle.next) (mentioned : f.name ∈ middle.mentioned) :
    before.Follows ties env stop (.function f :: parts) middle.taken := by
  refine follows.idle ?_ isNew rfl rfl rfl rfl rfl rfl rfl rfl
  refine (Makes.refl middle).cons middle.grows_taken isNew rfl nofun ?_
  rintro _ ⟨⟩
  exact mentioned

/-- An expression that is no variable, stands in no parentheses and grows no array. -/
theorem expr (follows : before.Follows ties env stop parts middle) {e : Ir.Expr} (type : CType)
    (isNew : (Part.expr e).id = middle.next) (unnamed : (Part.expr e).variableName? = none)
    (unwrapped : (Part.expr e).wrapped? = none) (silent : (Part.expr e).grown? = none) :
    before.Follows ties env stop (.expr e :: parts) (middle.taken.record middle.next type) :=
  follows.idle ((Makes.refl middle).expr type isNew unnamed) isNew unnamed rfl unwrapped
    silent rfl rfl rfl rfl

/-- A use of a name. -/
theorem use (visible : before.visible = env) (size : before.bindings.size = stop) (span : Span)
    (name : String) :
    before.Follows [(name, env.lookup name)] env stop
      (Ir.Expr.ident ⟨before.next, span⟩ name).parts (before.taken.use name before.next) := by
  subst visible
  have takes : before.Takes (.expr (.ident ⟨before.next, span⟩ name)) (before.visible.lookup name)
      (before.taken.use name before.next) :=
    { makes := before.makes_use span name
      isNew := rfl
      next := State.use_next _ _ _
      carriers := State.use_carriers _ _ _
      visible := State.use_visible _ _ _
      size := congrArg Array.size (State.use_bindings _ _ _)
      plain := rfl
      untied := by
        intro unnamed
        cases unnamed
      small := fun sound _ => sound.lookup
      wraps := by
        intro _ isInner
        cases isInner }
  exact takes.follows_of_same rfl size rfl (State.use_bindings _ _ _)

/-- An expression in parentheses. -/
theorem paren {inner : Ir.Expr} (follows : before.Follows ties env stop inner.parts middle)
    (small : inner.id < middle.next) (span : Span) :
    before.Follows ties env stop (Ir.Expr.paren ⟨middle.next, span⟩ inner).parts
      (middle.taken.shareType middle.next inner.id) :=
  follows.cons ((takes_shareType small span).follows_of_same follows.visible follows.size rfl rfl)

/-- A call, which grows an array if it is one of `push` or `pop`. -/
theorem call (follows : before.Follows ties env stop parts middle) {callee : Ir.Expr} {u : Unit}
    (growth : noteGrowth callee declared middle = .ok (u, after))
    (known : ∀ object ∈ callee.growing?, object < middle.next) (span : Span)
    (args : List Ir.Expr) (type : CType) :
    before.Follows ties env stop (.expr (.call ⟨after.next, span⟩ callee args) :: parts)
      (after.taken.record after.next type) := by
  have grown := noteGrowth_ok.1 growth
  have makes := (growing_noteGrowth callee growth).makes (next_noteGrowth growth)
  generalize eq : callee.growing?.bind middle.bindingOf? = found at grown
  obtain ⟨next, carriers, visible, size⟩ : after.next = middle.next ∧
      after.carriers = middle.carriers ∧ after.visible = middle.visible ∧
      after.bindings.size = middle.bindings.size := by
    subst grown
    cases found with
    | none => exact ⟨rfl, rfl, rfl, rfl⟩
    | some binding => exact ⟨rfl, rfl, rfl, Array.size_modify⟩
  have takes : middle.Takes (.expr (.call ⟨after.next, span⟩ callee args)) none
      (after.taken.record after.next type) :=
    { makes := makes.expr type rfl rfl
      isNew := next
      next := congrArg (· + 1) next
      carriers := carriers
      visible := visible
      size := size
      plain := rfl
      untied := fun _ _ => rfl
      small := fun _ => nofun
      wraps := nofun }
  refine follows.cons (takes.follows follows.visible follows.size known ?_)
  intro binding type isBound
  have isGrown : middle.isGrown [.expr (.call ⟨after.next, span⟩ callee args)] binding =
      decide (found = some binding) := by
    rw [State.isGrown, List.any_cons, List.any_nil, Bool.or_false, ← eq]
    rfl
  subst grown
  rw [isGrown]
  cases found with
  | none =>
    rw [decide_eq_false (Option.some_ne_none binding).symm, CType.promoted_false]
    exact isBound
  | some other => exact middle.grow_bindings other binding isBound

/-- A variable that is declared. -/
theorem declares (follows : before.Follows ties env stop parts middle) (part : Part) {name : String}
    (type : CType) (isNew : part.id = middle.next) (declares : part.declares = true)
    (named : part.name? = some name) :
    before.Follows ((name, some stop) :: ties) ((name, stop) :: env) (stop + 1) (part :: parts)
      (middle.taken.declare name type middle.next) := by
  obtain ⟨rfl, rfl⟩ : middle.visible = env ∧ middle.bindings.size = stop :=
    ⟨follows.visible, follows.size⟩
  have step : middle.Follows [(name, some middle.bindings.size)]
      ((name, middle.bindings.size) :: middle.visible) (middle.bindings.size + 1) [part]
      (middle.taken.declare name type middle.next) :=
    { visible := rfl
      size := Array.size_push _
      binds := fun sound => sound.binds_declare type isNew declares named
      tied := by
        intro _
        rw [State.ties, List.filterMap_cons, State.tie?, Part.variableName?_of_declares declares,
          named, isNew, State.bindingOf?_declare]
        rfl }
  exact follows.cons step

end State.Follows

end ScriptToC.Lowering
