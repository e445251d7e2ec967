import ScriptToC.Proofs.Lowering.Parts
import ScriptToC.Proofs.Lowering.Scoping

/-!
# What nodes carry

A node that declares or uses a variable carries the binding of the variable, and so does one in
parentheses if the expression inside does. This module says what a row of steps of lowering does to
the bindings (`State.Binds`): each declared variable gets a binding of its own, with the type that
is recorded at its declaration, and a binding changes only by growing. Where a call of `push` or
`pop` grows an array is read off the parts (`State.isGrown`), so that it does not matter when it was
noticed. What is said so of two rows of steps can be put together (`Binds.append`), also where the
parts of the second are listed before those of the first (`Binds.perm`).
-/

set_option autoImplicit false

namespace ScriptToC

/-- The type of a variable: an array is on the heap if it was so from the start, or if it grows. -/
def CType.promoted (type : CType) (grown : Bool) : CType :=
  match type with
  | array element capacity dynamic => array element capacity (dynamic || grown)
  | other => other

namespace CType

@[simp] theorem promoted_false (type : CType) : type.promoted false = type := by
  cases type <;> simp [promoted]

@[simp] theorem promoted_true (type : CType) : type.promoted true = type.onHeap := by
  cases type <;> simp [promoted, onHeap]

@[simp] theorem promoted_promoted (type : CType) (first second : Bool) :
    (type.promoted first).promoted second = type.promoted (first || second) := by
  cases type <;> simp [promoted, Bool.or_assoc]

end CType

namespace Ir

/-- The array that grows if this expression is called. -/
def Expr.growing? : Expr → Option NodeId
  | .member _ owner property =>
    if property = "push" ∨ property = "pop" then some owner.id else none
  | _ => none

/-- An array that grows is a part of the expression that is called. -/
theorem Expr.mem_parts_of_growing {e : Expr} {id : NodeId} (grows : e.growing? = some id) :
    ∃ part ∈ e.parts, part.id = id := by
  cases e with
  | member node owner property =>
    rw [growing?] at grows
    split at grows
    · cases grows
      exact ⟨_, List.mem_cons_of_mem _ owner.expr_mem_parts, rfl⟩
    · cases grows
  | _ => cases grows

namespace Part

/-- The variable that a part declares or uses. -/
def variableName? : Part → Option String
  | function _ => none
  | part => part.name?

/-- The part declares a variable. -/
def declares : Part → Bool
  | param _ | declarator _ => true
  | _ => false

theorem variableName?_of_declares {part : Part} (declares : part.declares = true) :
    part.variableName? = part.name? := by
  cases part <;> first | rfl | cases declares

/-- What stands inside, if the part is an expression in parentheses. -/
def wrapped? : Part → Option NodeId
  | expr (.paren _ inner) => some inner.id
  | _ => none

/-- The array that grows, if the part is a call of `push` or `pop`. -/
def grown? : Part → Option NodeId
  | expr (.call _ callee _) => callee.growing?
  | _ => none

end Part

end Ir

namespace Lowering

open Source
open Ir (Part)

variable {declared : Declared} {before middle after : State}
variable {parts others : List Part} {part : Part}

namespace State

/-! ## Ties of parts -/

/-- The name at a part, with the variable that the part is tied to. -/
def tie? (state : State) (part : Part) : Option Tie :=
  part.variableName?.map fun name => (name, state.bindingOf? part.id)

/-- The names at some parts, with the variables that the parts are tied to. -/
def ties (state : State) (parts : List Part) : List Tie :=
  parts.filterMap state.tie?

theorem ties_append (state : State) (parts others : List Part) :
    state.ties (parts ++ others) = state.ties parts ++ state.ties others :=
  List.filterMap_append

/-- What a part carries stays. -/
theorem Makes.bindingOf?_eq (makes : before.Makes parts middle) (grows : middle.Grows after)
    (member : part ∈ parts) : after.bindingOf? part.id = middle.bindingOf? part.id :=
  grows.carries (makes.fresh part member).2

theorem Makes.ties_eq (makes : before.Makes parts middle) (grows : middle.Grows after) :
    after.ties parts = middle.ties parts := by
  apply List.filterMap_congr
  intro part member
  rw [tie?, tie?, makes.bindingOf?_eq grows member]

/-! ## Growing arrays -/

/-- A call among the parts grows the array in a variable. -/
def isGrown (state : State) (parts : List Part) (binding : BindingId) : Bool :=
  parts.any fun part => part.grown?.bind state.bindingOf? = some binding

theorem isGrown_iff {state : State} {binding : BindingId} :
    state.isGrown parts binding = true ↔
      ∃ part ∈ parts, ∃ object ∈ part.grown?, state.bindingOf? object = some binding := by
  simp [isGrown, Option.bind_eq_some_iff]

theorem isGrown_nil (state : State) (binding : BindingId) : state.isGrown [] binding = false :=
  rfl

theorem isGrown_append (state : State) (parts others : List Part) (binding : BindingId) :
    state.isGrown (parts ++ others) binding =
      (state.isGrown parts binding || state.isGrown others binding) :=
  List.any_append

/-- A part that is no growing call has no influence. -/
theorem isGrown_cons_of_none {state : State} (silent : part.grown? = none) (parts : List Part)
    (binding : BindingId) :
    state.isGrown (part :: parts) binding = state.isGrown parts binding := by
  rw [isGrown, List.any_cons, silent]
  rfl

theorem isGrown_perm {state : State} (perm : parts.Perm others) (binding : BindingId) :
    state.isGrown parts binding = state.isGrown others binding :=
  perm.any_eq

/-- Which variables are grown by parts that are known does not change. -/
theorem Grows.isGrown_eq (grows : before.Grows after)
    (calls : ∀ part ∈ parts, ∀ object ∈ part.grown?, object < before.next) (binding : BindingId) :
    after.isGrown parts binding = before.isGrown parts binding := by
  rw [Bool.eq_iff_iff, isGrown_iff, isGrown_iff]
  refine exists_congr fun part => and_congr_right fun member => ?_
  refine exists_congr fun object => and_congr_right fun isObject => ?_
  rw [grows.carries (calls part member object isObject)]

/-- The array in the object of a growing method moves to the heap. -/
theorem noteGrowth_ok {e : Ir.Expr} {u : Unit} :
    noteGrowth e declared before = .ok (u, after) ↔
      (e.growing?.bind before.bindingOf?).elim before before.grow = after := by
  cases e with
  | member node owner property =>
    rw [noteGrowth, Ir.Expr.growing?]
    split
    · rw [modify_ok, Option.bind_some]
      cases before.bindingOf? owner.id <;> rfl
    · exact pure_ok.trans (and_iff_right rfl)
  | _ => exact pure_ok.trans (and_iff_right rfl)

/-! ## Sound states -/

/-- Nodes and names refer to bindings that there are, and a node that was not taken to none. -/
structure Sound (state : State) : Prop where
  unused : ∀ ⦃id : NodeId⦄, state.next ≤ id → state.bindingOf? id = none
  carried : ∀ ⦃id : NodeId⦄ ⦃binding : BindingId⦄,
    state.bindingOf? id = some binding → binding < state.bindings.size
  seen : ∀ entry ∈ state.visible, entry.2 < state.bindings.size

theorem sound_empty : ({} : State).Sound where
  unused := by
    intro id _
    exact Std.TreeMap.getElem?_emptyc
  carried := by
    intro id binding carries
    rw [bindingOf?, Std.TreeMap.getElem?_emptyc] at carries
    cases carries
  seen := List.forall_mem_nil _

/-- A step that takes the next node says what it carries. -/
theorem Sound.bindingOf?_eq {found : Option BindingId} (sound : before.Sound)
    (carriers : after.carriers =
      found.elim before.carriers (before.carriers.insert before.next)) (id : NodeId) :
    after.bindingOf? id = if id = before.next then found else before.bindingOf? id := by
  rw [bindingOf?, carriers]
  cases found with
  | none =>
    change before.bindingOf? id = _
    split
    next same => exact sound.unused (Nat.le_of_eq same.symm)
    next _ => rfl
  | some binding =>
    rw [Option.elim_some, Std.TreeMap.getElem?_insert]
    exact if_congr (Std.LawfulEqCmp.compare_eq_iff_eq.trans eq_comm) rfl rfl

theorem Sound.step {found : Option BindingId} (sound : before.Sound)
    (next : after.next = before.next + 1)
    (carriers : after.carriers =
      found.elim before.carriers (before.carriers.insert before.next))
    (more : before.bindings.size ≤ after.bindings.size)
    (small : ∀ binding ∈ found, binding < after.bindings.size)
    (seen : ∀ entry ∈ after.visible, entry.2 < after.bindings.size) : after.Sound where
  unused := by
    intro id large
    rw [next] at large
    rw [sound.bindingOf?_eq carriers, if_neg (Nat.ne_of_gt large)]
    exact sound.unused (Nat.le_of_succ_le large)
  carried := by
    intro id binding isCarried
    rw [sound.bindingOf?_eq carriers] at isCarried
    split at isCarried
    · exact small binding isCarried
    · exact Nat.lt_of_lt_of_le (sound.carried isCarried) more
  seen := seen

/-- The names that were visible before refer to bindings that there are. -/
theorem Sound.leave (sound : before.Sound) (sound' : after.Sound)
    (more : before.bindings.size ≤ after.bindings.size) :
    State.Sound { after with visible := before.visible } where
  unused := sound'.unused
  carried := sound'.carried
  seen := fun entry member => Nat.lt_of_lt_of_le (sound.seen entry member) more

/-- The variable that a name stands for. -/
theorem Sound.lookup (sound : before.Sound) {name : String} {binding : BindingId}
    (found : before.visible.lookup name = some binding) : binding < before.bindings.size := by
  obtain ⟨inner, outer, eq, -⟩ := List.lookup_eq_some_iff.1 found
  refine sound.seen (name, binding) ?_
  rw [eq]
  exact List.mem_append_right _ List.mem_cons_self

/-- A variable that is declared later is not grown yet. -/
theorem Sound.isGrown_new (sound : before.Sound) {binding : BindingId}
    (isNew : before.bindings.size ≤ binding) : before.isGrown parts binding = false := by
  rw [Bool.eq_false_iff, ne_eq, isGrown_iff]
  rintro ⟨part, -, object, -, carries⟩
  exact Nat.not_lt.2 isNew (sound.carried carries)

/-! ## Bindings of new parts -/

/-- The bindings that the declarations among some parts carry. -/
def declaredBindings (state : State) (parts : List Part) : List (Option BindingId) :=
  (parts.filter Part.declares).map fun part => state.bindingOf? part.id

theorem declaredBindings_append (state : State) (parts others : List Part) :
    state.declaredBindings (parts ++ others) =
      state.declaredBindings parts ++ state.declaredBindings others := by
  rw [declaredBindings, List.filter_append, List.map_append]
  rfl

theorem Makes.declaredBindings_eq (makes : before.Makes parts middle)
    (grows : middle.Grows after) :
    after.declaredBindings parts = middle.declaredBindings parts := by
  apply List.map_congr_left
  intro part member
  exact makes.bindingOf?_eq grows (List.mem_of_mem_filter member)

/-- What the parts that are new say about bindings. Each declaration among them has a binding of its
own, and each binding that is new has its declaration. -/
structure Binds (before : State) (parts : List Part) (after : State) : Prop where
  makes : before.Makes parts after
  sound : after.Sound
  more : before.bindings.size ≤ after.bindings.size
  wraps : ∀ part ∈ parts, ∀ inner ∈ part.wrapped?,
    inner < after.next ∧ after.bindingOf? part.id = after.bindingOf? inner
  calls : ∀ part ∈ parts, ∀ object ∈ part.grown?, object < after.next
  untied : ∀ part ∈ parts, part.variableName? = none → part.wrapped? = none →
    after.bindingOf? part.id = none
  kept : ∀ ⦃binding : BindingId⦄ ⦃type : CType⦄, before.bindings[binding]? = some type →
    after.bindings[binding]? = some (type.promoted (after.isGrown parts binding))
  numbered : (after.declaredBindings parts).Perm
    ((List.range' before.bindings.size (after.bindings.size - before.bindings.size)).map some)
  declared : ∀ part ∈ parts, part.declares = true → ∃ binding type,
    after.bindingOf? part.id = some binding ∧ after.types.find? part.id = some type ∧
      after.bindings[binding]? = some (type.promoted (after.isGrown parts binding))

/-- A step that makes no part and says nothing about bindings. -/
theorem Grows.binds (grows : before.Grows after) (next : after.next = before.next)
    (sound : after.Sound) (same : after.bindings = before.bindings) : before.Binds [] after where
  makes := grows.makes next
  sound := sound
  more := same ▸ Nat.le_refl _
  wraps := List.forall_mem_nil _
  calls := List.forall_mem_nil _
  untied := List.forall_mem_nil _
  kept := by
    intro binding type found
    rw [same, found, isGrown_nil, CType.promoted_false]
  numbered := by
    rw [same, Nat.sub_self]
    exact .nil
  declared := List.forall_mem_nil _

/-- A declaration that is new carries a binding that is new. -/
theorem Binds.isNew (binds : before.Binds parts after) (member : part ∈ parts)
    (declares : part.declares = true) {binding : BindingId}
    (carries : after.bindingOf? part.id = some binding) :
    before.bindings.size ≤ binding ∧ binding < after.bindings.size := by
  have among : some binding ∈ after.declaredBindings parts :=
    List.mem_map.2 ⟨part, List.mem_filter.2 ⟨member, declares⟩, carries⟩
  obtain ⟨number, inRange, ⟨⟩⟩ := List.mem_map.1 (binds.numbered.mem_iff.1 among)
  obtain ⟨low, high⟩ := List.mem_range'_1.1 inRange
  exact ⟨low, Nat.lt_of_lt_of_eq high (Nat.add_sub_cancel' binds.more)⟩

/-- A part without a name carries what it is wrapped around, if anything. -/
theorem Binds.bindingOf?_of_unnamed (binds : before.Binds parts after) (member : part ∈ parts)
    (unnamed : part.variableName? = none) :
    after.bindingOf? part.id = part.wrapped?.bind after.bindingOf? := by
  cases wraps : part.wrapped? with
  | none => exact binds.untied part member unnamed wraps
  | some inner => exact (binds.wraps part member inner wraps).2

/-- What grows a variable in two rows of steps. -/
theorem Binds.isGrown_append (binds : before.Binds parts middle) (grows : middle.Grows after)
    (others : List Part) (binding : BindingId) : after.isGrown (parts ++ others) binding =
      (middle.isGrown parts binding || after.isGrown others binding) := by
  rw [State.isGrown_append, grows.isGrown_eq binds.calls]

/-- One row of steps after another. -/
theorem Binds.append (binds : before.Binds parts middle) (binds' : middle.Binds others after) :
    before.Binds (parts ++ others) after where
  makes := binds.makes.append binds'.makes
  sound := binds'.sound
  more := Nat.le_trans binds.more binds'.more
  wraps := by
    refine List.forall_mem_append.2 ⟨?_, binds'.wraps⟩
    intro part member inner isInner
    have grows := binds'.makes.grows
    obtain ⟨small, same⟩ := binds.wraps part member inner isInner
    rw [binds.makes.bindingOf?_eq grows member, grows.carries small]
    exact ⟨Nat.lt_of_lt_of_le small grows.next, same⟩
  calls := by
    refine List.forall_mem_append.2 ⟨?_, binds'.calls⟩
    intro part member object isObject
    exact Nat.lt_of_lt_of_le (binds.calls part member object isObject) binds'.makes.grows.next
  untied := by
    refine List.forall_mem_append.2 ⟨?_, binds'.untied⟩
    intro part member unnamed unwrapped
    rw [binds.makes.bindingOf?_eq binds'.makes.grows member]
    exact binds.untied part member unnamed unwrapped
  kept := by
    intro binding type found
    rw [binds.isGrown_append binds'.makes.grows, ← CType.promoted_promoted]
    exact binds'.kept (binds.kept found)
  numbered := by
    have more := binds.more
    have more' := binds'.more
    have sum : after.bindings.size - before.bindings.size =
        (middle.bindings.size - before.bindings.size) +
          (after.bindings.size - middle.bindings.size) := by omega
    rw [declaredBindings_append, binds.makes.declaredBindings_eq binds'.makes.grows, sum,
      ← List.range'_append_1, List.map_append, Nat.add_sub_cancel' more]
    exact binds.numbered.append binds'.numbered
  declared := by
    have grows := binds'.makes.grows
    refine List.forall_mem_append.2 ⟨?_, ?_⟩
    · intro part member declares
      obtain ⟨binding, type, carries, typed, bound⟩ := binds.declared part member declares
      refine ⟨binding, type, (binds.makes.bindingOf?_eq grows member).trans carries, ?_, ?_⟩
      · rw [grows.typed (binds.makes.fresh part member).2, typed]
      · rw [binds.isGrown_append grows, ← CType.promoted_promoted]
        exact binds'.kept bound
    · intro part member declares
      obtain ⟨binding, type, carries, typed, bound⟩ := binds'.declared part member declares
      -- Nothing that came before the declaration grows the variable.
      have isNew := (binds'.isNew member declares carries).1
      refine ⟨binding, type, carries, typed, ?_⟩
      rw [binds.isGrown_append grows, binds.sound.isGrown_new isNew, Bool.false_or]
      exact bound

/-- The parts in another order. -/
theorem Binds.perm (binds : before.Binds parts after) (perm : parts.Perm others) :
    before.Binds others after where
  makes := binds.makes.perm perm
  sound := binds.sound
  more := binds.more
  wraps := fun part member => binds.wraps part (perm.mem_iff.2 member)
  calls := fun part member => binds.calls part (perm.mem_iff.2 member)
  untied := fun part member => binds.untied part (perm.mem_iff.2 member)
  kept := by
    intro binding type found
    rw [← isGrown_perm perm]
    exact binds.kept found
  numbered := ((perm.filter _).map _).symm.trans binds.numbered
  declared := by
    intro part member declares
    obtain ⟨binding, type, rest⟩ := binds.declared part (perm.mem_iff.2 member) declares
    rw [isGrown_perm perm] at rest
    exact ⟨binding, type, rest⟩

end State
end Lowering
end ScriptToC
