import ScriptToC.Proofs.Hoisting.Places
import ScriptToC.Proofs.Lowering.Growth

/-!
# What lowering says about bindings

Every name that a lowered program binds is among the names that the script mentions, so that it is
reserved when the program is emitted. Annotations stand for arrays on the heap only; the type of a
parameter, which comes from its annotation, is therefore the type of its binding also at the end,
when arrays that grow have moved to the heap. The main statement is `lowerItems_covers`.
-/

set_option autoImplicit false

namespace ScriptToC.Lowering

open Source

variable {declared : Declared} {before after : State}

/-! ## Names -/

/-- Every binding has one of the names. -/
def Mentions (names : List String) (bs : List Binding) : Prop :=
  ∀ b ∈ bs, b.name ∈ names

section Mentions

variable {names names' : List String} {bs bs' : List Binding}

theorem Mentions.mono (mentions : Mentions names bs)
    (sub : ∀ {name : String}, name ∈ names → name ∈ names') : Mentions names' bs := by
  intro b member
  exact sub (mentions b member)

theorem mentions_nil : Mentions names [] :=
  List.forall_mem_nil _

theorem mentions_append : Mentions names (bs ++ bs') ↔ Mentions names bs ∧ Mentions names bs' :=
  List.forall_mem_append

theorem mentions_enter (step : Nat × Nat) :
    Mentions names (bs.map (.enter step)) ↔ Mentions names bs := by
  simp [Mentions, Binding.enter]

theorem mentions_leave (step : Nat × Nat) :
    Mentions names (bs.map (.leave step)) ↔ Mentions names bs := by
  simp [Mentions, Binding.leave]

theorem mentions_declarators {declarators : List Ir.Declarator} (site : Place) :
    Mentions names (declarators.map (.ofDeclarator site)) ↔
      ∀ declarator ∈ declarators, declarator.name ∈ names := by
  simp [Mentions, Binding.ofDeclarator]

/-- A statement under a condition or a loop binds what it binds anywhere. -/
theorem mentions_asBody {s : Ir.Stmt} (mentions : ∀ index, Mentions names (s.bindings index)) :
    Mentions names (Ir.rowBindings 0 s.asBody) := by
  cases s with
  | block node body =>
    have inside := mentions 0
    rw [Ir.Stmt.bindings, mentions_enter] at inside
    exact inside
  | _ =>
    rw [Ir.Stmt.asBody, Ir.Stmt.toBody, Ir.rowBindings, Ir.rowBindings, List.append_nil]
    · exact mentions 0
    · simp

end Mentions

/-- What is declared is mentioned. -/
theorem LowersDeclarators.mentions {declarators : List Declarator} {list : List Ir.Declarator}
    (lowers : LowersDeclarators declared declarators before list after) :
    ∀ declarator ∈ list, declarator.name ∈ after.mentioned := by
  induction lowers with
  | nil => exact List.forall_mem_nil _
  | cons _ _ others ih =>
    exact List.forall_mem_cons.2 ⟨others.grows.mentioned List.mem_cons_self, ih⟩

theorem LowersForLeft.mentions {element : CType} {left : ForLeft} {result : Ir.ForBinding}
    (lowers : LowersForLeft declared element left before result after) :
    ∀ declarator ∈ result.declarators, declarator.name ∈ after.mentioned := by
  cases lowers with
  | declare => exact List.forall_mem_singleton.2 List.mem_cons_self
  | target => exact List.forall_mem_nil _

theorem LowersStart.mentions {init : Option ForInit} {result : Option Ir.ForInit}
    (lowers : LowersStart declared init before result after) :
    ∀ declarator ∈ Ir.startDeclarators result, declarator.name ∈ after.mentioned := by
  cases lowers with
  | none => exact List.forall_mem_nil _
  | declare declares => exact declares.mentions
  | evaluate => exact List.forall_mem_nil _

/-- What the head of a loop and its body bind is mentioned at the end of the body. -/
theorem mentions_loop {declarators : List Ir.Declarator} {bs : List Binding}
    (head : ∀ declarator ∈ declarators, declarator.name ∈ before.mentioned)
    (grows : before.Grows after) (inside : Mentions after.mentioned bs) (site : Place) :
    Mentions after.mentioned (declarators.map (.ofDeclarator site) ++ bs) := by
  refine mentions_append.2 ⟨(mentions_declarators site).2 ?_, inside⟩
  intro declarator isOne
  exact grows.mentioned (head declarator isOne)

mutual

/-- What a statement binds is mentioned. -/
theorem LowersStmt.mentions : ∀ {s : Stmt} {before after : State} {result : Ir.Stmt},
    LowersStmt declared s before result after →
      ∀ index, Mentions after.mentioned (result.bindings index)
  | _, _, _, _, .declaration declares, _ => (mentions_declarators []).2 declares.mentions
  | _, _, _, _, .ifThen _ inside, _ | _, _, _, _, .whileLoop _ inside, _ =>
    (mentions_enter _).2 (mentions_asBody inside.mentions)
  | _, _, _, _, .ifElse _ yes no, _ => by
      have first := (mentions_asBody yes.mentions).mono no.grows.mentioned
      have second := mentions_asBody no.mentions
      exact mentions_append.2 ⟨(mentions_enter _).2 first, (mentions_enter _).2 second⟩
  | _, _, _, _, .doLoop inside tail, _ =>
    (mentions_enter _).2 ((mentions_asBody inside.mentions).mono tail.grows.mentioned)
  | _, _, _, _, .forLoop start head step inside, _ => by
      have grows := (head.grows.trans step.grows).trans inside.grows
      have body := mentions_asBody inside.mentions
      exact mentions_loop start.mentions grows ((mentions_enter _).2 body) _
  | _, _, _, _, .forOf _ head inside, _ =>
    mentions_loop head.mentions inside.grows ((mentions_leave _).2 (inside.mentions 0)) _
  | _, _, _, _, .forIn _ head inside, _ => by
      have body := mentions_asBody inside.mentions
      exact mentions_loop head.mentions inside.grows ((mentions_leave _).2 body) _
  | _, _, _, _, .switchOn _ each, _ => (mentions_leave _).2 (each.mentions 0)
  | _, _, _, _, .block all, _ => (mentions_enter _).2 (all.mentions 0)
  | _, _, _, _, .expression _, _ | _, _, _, _, .returnStmt _, _ | _, _, _, _, .breakStmt .., _
  | _, _, _, _, .continueStmt .., _ | _, _, _, _, .emptyStmt .., _
  | _, _, _, _, .importFrom .., _ => mentions_nil

theorem LowersStmts.mentions : ∀ {body : List Stmt} {before after : State} {result : List Ir.Stmt},
    LowersStmts declared body before result after →
      ∀ index, Mentions after.mentioned (Ir.rowBindings index result)
  | _, _, _, _, .nil _, _ => mentions_nil
  | _, _, _, _, .typeOnly others, index => others.mentions index
  | _, _, _, _, .cons first others, index =>
    mentions_append.2 ⟨(first.mentions index).mono others.grows.mentioned, others.mentions _⟩

theorem LowersCases.mentions : ∀ {cases : List (Case Stmt)} {before after : State}
    {result : List (Ir.Clause Ir.Stmt)}, LowersCases declared cases before result after →
      ∀ index, Mentions after.mentioned (Ir.clauseBindings index result)
  | _, _, _, _, .nil _, _ => mentions_nil
  | _, _, _, _, .cons _ inside others, _ => by
      have first := (inside.mentions 0).mono others.grows.mentioned
      exact mentions_append.2 ⟨(mentions_leave _).2 first, others.mentions _⟩

end

/-! ## Types of annotations -/

/-- Every alias stands for a type that does not change if it moves to the heap. -/
def Declared.Settled (declared : Declared) : Prop :=
  ∀ ⦃name : String⦄ ⦃type : CType⦄,
    declared.aliases.lookup name = some type → type.onHeap = type

theorem onHeap_namedType (settled : declared.Settled) (name : String) (args : List CType) :
    (namedType declared.aliases name args).onHeap = namedType declared.aliases name args := by
  rw [namedType]
  split
  · rfl
  · split
    · rfl
    · split
      · rfl
      · cases found : declared.aliases.lookup name with
        | none => rfl
        | some type => exact settled found

/-- An annotation stands for an array only if the array is on the heap. -/
theorem onHeap_typeOfExpr (settled : declared.Settled) :
    ∀ type : TypeExpr, (typeOfExpr declared.aliases type).onHeap = typeOfExpr declared.aliases type
  | .number => by rw [typeOfExpr]; rfl
  | .boolean => by rw [typeOfExpr]; rfl
  | .string => by rw [typeOfExpr]; rfl
  | .void => by rw [typeOfExpr]; rfl
  | .array _ => by rw [typeOfExpr]; rfl
  | .paren inner => by rw [typeOfExpr]; exact onHeap_typeOfExpr settled inner
  | .literal members => by
      rw [typeOfExpr]
      cases indexType declared.aliases members <;> rfl
  | .named _ _ => by rw [typeOfExpr]; exact onHeap_namedType settled _ _
  | .other => by rw [typeOfExpr]; rfl

theorem Declared.Settled.alias (settled : declared.Settled) (name : String) (type : TypeExpr) :
    Declared.Settled { declared with
      aliases := (name, typeOfExpr declared.aliases type) :: declared.aliases } := by
  intro other found isAlias
  rw [List.lookup_cons] at isAlias
  split at isAlias
  · cases isAlias
    exact onHeap_typeOfExpr settled type
  · exact settled isAlias

theorem Declared.Settled.collect (settled : declared.Settled) (item : Item) :
    (declared.collect item).Settled := by
  unfold Declared.collect
  split
  · split <;> exact settled
  · exact settled
  next name type =>
    -- The item declares a structure or an alias.
    dsimp only
    split
    · exact settled
    · exact settled.alias name type
  · exact settled

theorem settled_ofProgram (program : Program) : (Declared.ofProgram program).Settled := by
  have all : ∀ (items : List Item) (declared : Declared), declared.Settled →
      (items.foldl Declared.collect declared).Settled := by
    intro items
    induction items with
    | nil => exact fun _ settled => settled
    | cons item rest ih => exact fun declared settled => ih _ (settled.collect item)
  exact all program {} (by simp [Declared.Settled])

/-! ## Parameters -/

/-- The state knows a parameter by its type, which is settled. -/
structure State.Knows (state : State) (param : Ir.Param) : Prop where
  old : param.id < state.next
  typed : (state.types.find? param.id).isSome = true
  bound : ∃ binding, state.bindingOf? param.id = some binding ∧
    state.bindings[binding]? = some param.type
  settled : param.type.onHeap = param.type

theorem State.Knows.grows {param : Ir.Param} (knows : before.Knows param)
    (grows : before.Grows after) : after.Knows param where
  old := Nat.lt_of_lt_of_le knows.old grows.next
  typed := by rw [grows.typed knows.old]; exact knows.typed
  bound := by
    obtain ⟨binding, carries, bound⟩ := knows.bound
    have later := grows.bound bound
    rw [knows.settled, or_self] at later
    exact ⟨binding, (grows.carries knows.old).trans carries, later⟩
  settled := knows.settled

/-- In the end a node has the type of the binding that it carries. -/
theorem State.find?_resolved {state : State} {id : NodeId} {binding : BindingId} {type : CType}
    (typed : (state.types.find? id).isSome = true) (carries : state.bindingOf? id = some binding)
    (bound : state.bindings[binding]? = some type) : state.resolved.find? id = some type := by
  obtain ⟨recorded, found⟩ := Option.isSome_iff_exists.1 typed
  rw [State.resolved, TypeTable.find?_map, found, Option.map_some, carries, Option.bind_some, bound,
    Option.getD_some]

/-- In the end the parameter has its type. -/
theorem State.Knows.resolved {state : State} {param : Ir.Param} (knows : state.Knows param) :
    state.resolved.find? param.id = some param.type := by
  obtain ⟨binding, carries, bound⟩ := knows.bound
  exact State.find?_resolved knows.typed carries bound

theorem knows_declare (state : State) (name : String) {type : CType}
    (settled : type.onHeap = type) :
    (state.taken.declare name type state.next).Knows ⟨state.next, name, type⟩ where
  old := Nat.lt_succ_self _
  typed := by
    change ((TypeTable.insert _ _ _).find? _).isSome = true
    rw [TypeTable.find?_insert, if_pos rfl]
    rfl
  bound := by
    refine ⟨state.bindings.size, ?_, ?_⟩
    · exact Std.TreeMap.getElem?_insert_self
    · exact Array.getElem?_push_size
  settled := settled

theorem LowersParams.knows (settled : declared.Settled) {params : List Param}
    {list : List Ir.Param} (lowers : LowersParams declared params before list after) :
    ∀ param ∈ list, after.Knows param := by
  induction lowers with
  | nil => exact List.forall_mem_nil _
  | @cons param _ name before _ _ _ others ih =>
    refine List.forall_mem_cons.2 ⟨?_, ih⟩
    refine (knows_declare before name ?_).grows others.grows
    rw [paramType]
    cases param.annotation with
    | none => rfl
    | some type => exact onHeap_typeOfExpr settled type

/-! ## Programs -/

/-- What a state says about the bindings of a function. -/
def State.Covers (state : State) (params : List Ir.Param) (body : List Ir.Stmt) : Prop :=
  (∀ param ∈ params, state.Knows param) ∧
    ∀ index, Mentions state.mentioned (Ir.rowBindings index body)

theorem State.Covers.grows {params : List Ir.Param} {body : List Ir.Stmt}
    (covers : before.Covers params body) (grows : before.Grows after) :
    after.Covers params body := by
  obtain ⟨knows, mentions⟩ := covers
  constructor
  · intro param member
    exact (knows param member).grows grows
  · intro index
    exact (mentions index).mono grows.mentioned

theorem LowersFunction.covers (settled : declared.Settled) {f : Function}
    {result : Option Ir.Function} (lowers : LowersFunction declared f before result after) :
    ∀ g ∈ result, after.Covers g.params g.body := by
  cases lowers with
  | declaration => nofun
  | definition _ _ _ _ params all =>
    rintro _ ⟨⟩
    refine ⟨?_, all.mentions⟩
    intro param member
    exact ((params.knows settled param member).grows all.grows).grows (State.grows_placed _ _)

theorem State.Covers.topLevel {s : Ir.Stmt} {rest : List Ir.Stmt}
    (first : ∀ index, Mentions before.mentioned (s.bindings index)) (grows : before.Grows after)
    (covers : after.Covers [] rest) : after.Covers [] (s :: rest) := by
  refine ⟨covers.1, fun index => mentions_append.2 ⟨?_, covers.2 _⟩⟩
  exact (first index).mono grows.mentioned

/-- What lowering a script says about the bindings of its functions and of the main program. -/
theorem LowersItems.covers (settled : declared.Settled) {items : List Item} {module : Ir.Module}
    (lowers : LowersItems declared items before module after) :
    (∀ f ∈ module.functions, after.Covers f.params f.body) ∧ after.Covers [] module.topLevel := by
  induction lowers with
  | nil => exact ⟨List.forall_mem_nil _, List.forall_mem_nil _, fun _ => mentions_nil⟩
  | function first others ih =>
    refine ⟨?_, ih.2⟩
    intro g member
    rcases List.mem_append.1 member with member | member
    · have covers := first.covers settled g (Option.mem_toList.1 member)
      exact covers.grows others.grows
    · exact ih.1 g member
  | exportedVariables first others ih | statement first others ih =>
    exact ⟨ih.1, ih.2.topLevel first.mentions others.grows⟩
  | typeOnly _ ih | interface _ ih | typeAlias _ ih => exact ih

theorem lowerItems_covers (settled : declared.Settled) {items : List Item} {module : Ir.Module}
    (run : lowerItems items declared before = .ok (module, after)) :
    (∀ f ∈ module.functions, after.Covers f.params f.body) ∧ after.Covers [] module.topLevel :=
  (lowersItems_of_run items run).covers settled

theorem lowerProgram_ok {script : Program} {lowered : Lowered}
    (run : lowerProgram script = .ok lowered) :
    ∃ module state, lowerItems script (Declared.ofProgram script) {} = .ok (module, state) ∧
      lowered = ⟨module, state.resolved, state.mentioned⟩ := by
  change (lowerItems script (Declared.ofProgram script) {}).bind (fun result =>
    .ok ⟨result.1, result.2.resolved, result.2.mentioned⟩) = .ok lowered at run
  cases items : lowerItems script (Declared.ofProgram script) {} with
  | error cause =>
    rw [items] at run
    cases run
  | ok result =>
    rw [items] at run
    cases run
    exact ⟨_, _, rfl, rfl⟩

end ScriptToC.Lowering
