import ScriptToC.Proofs.Emission.Frame
import ScriptToC.Proofs.Hoisting.Introductions
import ScriptToC.Proofs.Hoisting.Openings

/-!
# How scopes are laid out

A tree is extended by scopes that have C forms, in the order of these. In the end a new scope
declares the locals that have it as their home, each name once and in the order of introduction
(`Extends`). Extensions follow one another (`Extends.append`), in a new scope that declares what is
introduced in it (`Extends.enter`), or in one whose locals move outward, so that it ends up empty
(`Extends.leave`).
-/

set_option autoImplicit false

namespace ScriptToC

open Ir ScopeTree

/-! ## Scopes that stay -/

namespace ScopeTree

variable {tree later : ScopeTree} {outer inner : ScopeId}

theorem lt_size_of_encloses (encloses : tree.Encloses outer inner) : outer < tree.size := by
  induction encloses with
  | self isScope => exact isScope
  | parent _ _ ih => exact ih

theorem isScope_of_encloses (encloses : tree.Encloses outer inner) : inner < tree.size := by
  cases encloses with
  | self isScope => exact isScope
  | parent isParent _ =>
    obtain ⟨scope, found, -⟩ := parent?_eq_some.1 isParent
    exact lt_size_of_find? found

/-- A scope stays around the scopes that it encloses. -/
theorem Evolves.encloses (evolves : Evolves tree later) (encloses : tree.Encloses outer inner) :
    later.Encloses outer inner := by
  induction encloses with
  | self isScope =>
    obtain ⟨scope, found⟩ := Option.isSome_iff_exists.1 ((find?_isSome_iff tree outer).2 isScope)
    obtain ⟨_, found', -, -⟩ := evolves.keeps found
    exact .self (lt_size_of_find? found')
  | parent isParent _ ih =>
    obtain ⟨scope, found, isParent⟩ := parent?_eq_some.1 isParent
    obtain ⟨scope', found', sameParent, -⟩ := evolves.keeps found
    exact .parent (parent?_eq_some.2 ⟨scope', found', sameParent.trans isParent⟩) ih

/-- A scope belongs to the same function as the scopes that it encloses. -/
theorem WellFormed.func?_eq (wf : tree.WellFormed) (encloses : tree.Encloses outer inner) :
    tree.func? outer = tree.func? inner := by
  induction encloses with
  | self => rfl
  | parent isParent _ ih =>
    obtain ⟨scope, found, isParent⟩ := parent?_eq_some.1 isParent
    obtain ⟨around, found', func⟩ := wf.func_parent found isParent
    rw [ih, func?, func?, found, found', Option.map_some, Option.map_some, func]

/-- Declaring locals opens no scope. -/
theorem size_extend? {id : ScopeId} {xs : List Variable}
    (extended : tree.extend? id xs = some later) :
    later.size = tree.size := by
  induction xs generalizing tree with
  | nil =>
    cases extended
    rfl
  | cons x rest ih =>
    simp only [extend?, Option.bind_eq_bind, Option.bind_eq_some_iff] at extended
    obtain ⟨⟨_, middle⟩, added, extended⟩ := extended
    obtain ⟨_, _, _, rfl⟩ := add?_eq_some.1 added
    exact (ih extended).trans (size_setLocals _ _ _)

/-- Locals that move outward leave their scope empty. The scopes other than the two keep theirs. -/
theorem locals?_of_moved {middle : ScopeTree} {moved : List Variable}
    (drained : tree.drain? inner = some (moved, middle))
    (extended : middle.extend? outer moved = some later) (different : inner ≠ outer) :
    later.size = tree.size ∧ later.locals? inner = some [] ∧
      ∀ {id : ScopeId}, id < tree.size → id ≠ inner → id ≠ outer →
        later.locals? id = tree.locals? id := by
  have frame := frame_extend extended
  have size := size_extend? extended
  obtain ⟨found, rfl⟩ := drain?_eq_some.1 drained
  rw [size_setLocals] at size
  refine ⟨size, ?_, fun {id} isScope notInner notOuter => ?_⟩
  · have isScope : inner < (tree.setLocals inner []).size := by
      rw [size_setLocals]
      exact lt_size_of_locals? found
    rw [frame.others isScope different, locals?_setLocals, if_pos rfl, found]
    rfl
  · have isScope' : id < (tree.setLocals inner []).size := by rwa [size_setLocals]
    rw [frame.others isScope' notOuter, locals?_setLocals, if_neg notInner]

end ScopeTree

/-! ## Extended trees -/

/-- The scope ends as its C form says. -/
def Opening.Fits (opening : Opening) (scope : Scope) : Prop :=
  scope.locals = opening.locals ∧ scope.parent.isNone = opening.isFunction

/-- The locals whose home a scope is. -/
def homed (list : List Introduction) (home : ScopeId) : List Variable :=
  (list.filter (·.home = home)).map (·.x)

theorem homed_append (first rest : List Introduction) (home : ScopeId) :
    homed (first ++ rest) home = homed first home ++ homed rest home := by
  rw [homed, List.filter_append, List.map_append, homed, homed]

theorem homed_eq_nil {list : List Introduction} {home : ScopeId}
    (none : ∀ i ∈ list, i.home ≠ home) : homed list home = [] := by
  rw [homed, List.map_eq_nil_iff, List.filter_eq_nil_iff]
  intro i member same
  exact none i member (of_decide_eq_true same)

theorem homed_map (xs : List Variable) (scope home : ScopeId) :
    homed (xs.map (⟨scope, home, ·⟩)) home = xs := by
  induction xs with
  | nil => rfl
  | cons x rest ih =>
    rw [homed, List.map_cons, List.filter_cons, if_pos (decide_eq_true rfl), List.map_cons, ← homed,
      ih]

/-- A tree was extended by scopes with these C forms and got these introductions; those that have
`home` as their home are the locals `xs`, and the others have new homes. -/
structure Extends (home : Option ScopeId) (xs : List Variable) (openings : List Opening)
    (list : List Introduction) (before after : ScopeTree) : Prop where
  evolves : before.Evolves after
  size : after.size = before.size + openings.length
  fits : ∀ {index : Nat} {opening : Opening}, openings[index]? = some opening →
    ∃ scope, after.find? (before.size + index) = some scope ∧ opening.Fits scope
  own : ∀ {id : ScopeId}, home = some id → homed list id = xs
  inside : ∀ {id : ScopeId}, before.size ≤ id → id < after.size →
    after.locals? id = some (introduce [] (homed list id))
  homes : ∀ i ∈ list, home = some i.home ∨ (before.size ≤ i.home ∧ i.home < after.size)
  encloses : ∀ i ∈ list, after.Encloses i.home i.scope

namespace Extends

variable {home : Option ScopeId} {xs ys : List Variable} {openings more : List Opening}
  {list others : List Introduction} {first second third : ScopeTree}

/-- A scope keeps its C form while it keeps its locals. -/
theorem fits_later {opening : Opening} {id : ScopeId} (evolves : second.Evolves third)
    (fits : ∃ scope, second.find? id = some scope ∧ opening.Fits scope)
    (kept : third.locals? id = second.locals? id) :
    ∃ scope, third.find? id = some scope ∧ opening.Fits scope := by
  obtain ⟨scope, found, sameLocals, root⟩ := fits
  obtain ⟨scope', found', sameParent, -⟩ := evolves.keeps found
  refine ⟨scope', found', ?_, sameParent ▸ root⟩
  rw [locals?, locals?, found, found', Option.map_some, Option.map_some] at kept
  exact (Option.some.inj kept).trans sameLocals

/-- A new scope at the end of the tree has its C form if it has the locals of this form later. -/
theorem fits_pushed {opening : Opening} {scope : Scope}
    (evolves : Evolves ⟨first.scopes ++ [scope]⟩ second)
    (locals : second.locals? first.size = some opening.locals)
    (root : scope.parent.isNone = opening.isFunction) :
    ∃ scope', second.find? first.size = some scope' ∧ opening.Fits scope' := by
  have isThere : (⟨first.scopes ++ [scope]⟩ : ScopeTree).find? first.size = some scope := by
    rw [find?_push, if_pos rfl]
  obtain ⟨scope', found, sameParent, -⟩ := evolves.keeps isThere
  refine ⟨scope', found, ?_, sameParent ▸ root⟩
  rw [locals?, found, Option.map_some] at locals
  exact Option.some.inj locals

theorem size_eq (part : Extends home xs [] list first second) : second.size = first.size :=
  part.size

/-- A scope that is neither the home nor new is not the home of what is introduced. -/
theorem homed_of_apart (part : Extends home xs openings list first second) {id : ScopeId}
    (notHome : home ≠ some id) (apart : id < first.size ∨ second.size ≤ id) :
    homed list id = [] := by
  apply homed_eq_nil
  rintro i member rfl
  rcases part.homes i member with isHome | ⟨new, isScope⟩
  · exact notHome isHome
  · exact apart.elim (Nat.not_lt.2 new) (Nat.not_le.2 isScope)

theorem refl (home : Option ScopeId) (tree : ScopeTree) : Extends home [] [] [] tree tree where
  evolves := .refl
  size := rfl
  fits := by simp
  own := fun _ => rfl
  inside := fun new isScope => absurd isScope (Nat.not_lt.2 new)
  homes := by simp
  encloses := by simp

/-- What introduces locals in a scope and opens none. -/
theorem of_head {scope home : ScopeId} (evolves : first.Evolves second)
    (size : second.size = first.size) (around : first.Encloses home scope) (xs : List Variable) :
    Extends (some home) xs [] (xs.map (⟨scope, home, ·⟩)) first second where
  evolves := evolves
  size := size
  fits := by simp
  own := by
    rintro _ ⟨⟩
    exact homed_map xs scope home
  inside := by
    intro id new isScope
    rw [size] at isScope
    exact absurd isScope (Nat.not_lt.2 new)
  homes := by
    intro i member
    obtain ⟨x, -, rfl⟩ := List.mem_map.1 member
    exact .inl rfl
  encloses := by
    intro i member
    obtain ⟨x, -, rfl⟩ := List.mem_map.1 member
    exact evolves.encloses around

/-- One part after another, of which the second leaves the new scopes of the first alone. -/
theorem append (part : Extends home xs openings list first second)
    (part' : Extends home ys more others second third)
    (old : ∀ id, home = some id → id < first.size)
    (kept : ∀ id, first.size ≤ id → id < second.size → third.locals? id = second.locals? id) :
    Extends home (xs ++ ys) (openings ++ more) (list ++ others) first third where
  evolves := part.evolves.trans part'.evolves
  size := by rw [part'.size, part.size, List.length_append, Nat.add_assoc]
  fits := by
    intro index opening found
    rw [List.getElem?_append] at found
    split at found
    next small =>
      have isScope : first.size + index < second.size := by
        rw [part.size]
        exact Nat.add_lt_add_left small _
      exact fits_later part'.evolves (part.fits found) (kept _ (Nat.le_add_right _ _) isScope)
    next large =>
      obtain ⟨scope, isScope, fits⟩ := part'.fits found
      refine ⟨scope, ?_, fits⟩
      rw [← isScope, part.size, Nat.add_assoc, Nat.add_sub_cancel' (Nat.not_lt.1 large)]
  own := by
    intro id same
    rw [homed_append, part.own same, part'.own same]
  inside := by
    intro id new isScope
    have notHome : home ≠ some id := fun isHome => Nat.not_lt.2 new (old id isHome)
    rw [homed_append]
    by_cases small : id < second.size
    · rw [part'.homed_of_apart notHome (.inl small), List.append_nil, kept id new small]
      exact part.inside new small
    · have large := Nat.not_lt.1 small
      rw [part.homed_of_apart notHome (.inr large), List.nil_append]
      exact part'.inside large isScope
  homes := by
    have grows : second.size ≤ third.size := by
      rw [part'.size]
      exact Nat.le_add_right _ _
    have grows' : first.size ≤ second.size := by
      rw [part.size]
      exact Nat.le_add_right _ _
    intro i member
    rcases List.mem_append.1 member with member | member
    · rcases part.homes i member with isHome | ⟨new, isScope⟩
      · exact .inl isHome
      · exact .inr ⟨new, Nat.lt_of_lt_of_le isScope grows⟩
    · rcases part'.homes i member with isHome | ⟨new, isScope⟩
      · exact .inl isHome
      · exact .inr ⟨Nat.le_trans grows' new, isScope⟩
  encloses := by
    intro i member
    rcases List.mem_append.1 member with member | member
    · exact part'.evolves.encloses (part.encloses i member)
    · exact part'.encloses i member

/-- One part after another, of which the second introduces locals in an old scope. -/
theorem next {scope id : ScopeId} (part : Extends (some id) xs openings list first second)
    (part' : Extends (some id) ys more others second third) {zs : List Variable}
    (frame : Frame scope zs second third) (around : first.Encloses id scope) :
    Extends (some id) (xs ++ ys) (openings ++ more) (list ++ others) first third := by
  apply part.append part'
  · rintro _ ⟨⟩
    exact lt_size_of_encloses around
  · intro other new isScope
    have isOld := isScope_of_encloses around
    exact frame.others isScope (Nat.ne_of_gt (Nat.lt_of_lt_of_le isOld new))

/-- A new scope that is home to what is introduced in it. -/
theorem enter {opening : Opening} {scope : Scope} (part : Extends (some first.size) xs openings list
      ⟨first.scopes ++ [scope]⟩ second) (opens : first.Evolves ⟨first.scopes ++ [scope]⟩)
    (declares : second.locals? first.size = some (introduce [] xs))
    (sameLocals : opening.locals = introduce [] xs)
    (root : scope.parent.isNone = opening.isFunction)
    (old : ∀ id, home = some id → id < first.size) :
    Extends home [] (opening :: openings) list first second where
  evolves := opens.trans part.evolves
  size := by rw [part.size, size_push, List.length_cons, Nat.add_assoc, Nat.add_comm 1]
  fits := by
    intro index other found
    cases index with
    | zero =>
      cases found
      exact fits_pushed part.evolves (sameLocals ▸ declares) root
    | succ index =>
      obtain ⟨scope', found', fits⟩ := part.fits found
      refine ⟨scope', ?_, fits⟩
      rw [← found', size_push, Nat.add_assoc, Nat.add_comm 1]
  own := by
    intro id same
    have small := old id same
    have notHome : some first.size ≠ some id := fun isHome =>
      Nat.ne_of_gt small (Option.some.inj isHome)
    apply part.homed_of_apart notHome (.inl _)
    rw [size_push]
    exact Nat.lt_succ_of_lt small
  inside := by
    intro id new isScope
    rcases Nat.eq_or_lt_of_le new with rfl | later
    · rw [declares, part.own rfl]
    · apply part.inside _ isScope
      rw [size_push]
      exact later
  homes := by
    intro i member
    right
    rcases part.homes i member with isHome | ⟨new, isScope⟩
    · rw [← Option.some.inj isHome]
      exact ⟨Nat.le_refl _, lt_size_of_locals? declares⟩
    · rw [size_push] at new
      exact ⟨Nat.le_of_succ_le new, isScope⟩
  encloses := part.encloses

/-- A new scope whose locals move outward, to the scope `outer`. -/
theorem leave {scope : Scope} {outer : ScopeId} {moved : List Variable} {fourth fifth : ScopeTree}
    (part : Extends home xs openings list ⟨first.scopes ++ [scope]⟩ third)
    (opens : first.Evolves ⟨first.scopes ++ [scope]⟩) (inFunction : scope.parent.isNone = false)
    (drained : third.drain? first.size = some (moved, fourth))
    (extended : fourth.extend? outer moved = some fifth) (isOld : outer < first.size)
    (old : ∀ id, home = some id → id < first.size) :
    Extends home xs (.moved :: openings) list first fifth := by
  have evolves : third.Evolves fifth := .head (.drain drained) (evolves_of_extend? extended)
  obtain ⟨sizes, empty, kept⟩ := locals?_of_moved drained extended (Nat.ne_of_gt isOld)
  have size := part.size
  rw [size_push] at size
  have kept' : ∀ {id : ScopeId}, first.size < id → id < third.size →
      fifth.locals? id = third.locals? id := fun new isScope =>
    kept isScope (Nat.ne_of_gt new) (Nat.ne_of_gt (Nat.lt_trans isOld new))
  constructor
  case evolves => exact opens.trans (part.evolves.trans evolves)
  case size => rw [sizes, size, List.length_cons, Nat.add_assoc, Nat.add_comm 1]
  case fits =>
    intro index other isOther
    cases index with
    | zero =>
      cases isOther
      exact fits_pushed (part.evolves.trans evolves) empty inFunction
    | succ index =>
      have small := (List.getElem?_eq_some_iff.1 isOther).1
      have position : first.size + (index + 1) = first.size + 1 + index := by omega
      have isScope : first.size + (index + 1) < third.size := by
        rw [List.length_cons] at small
        omega
      have fits := part.fits isOther
      rw [size_push, ← position] at fits
      exact fits_later evolves fits (kept' (Nat.lt_add_of_pos_right index.succ_pos) isScope)
  case own => exact part.own
  case inside =>
    intro id new isScope
    rw [sizes] at isScope
    rcases Nat.eq_or_lt_of_le new with rfl | later
    · have notHome : home ≠ some first.size := fun isHome => Nat.lt_irrefl _ (old _ isHome)
      have isNew : first.size < (⟨first.scopes ++ [scope]⟩ : ScopeTree).size := by
        rw [size_push]
        exact Nat.lt_succ_self _
      rw [empty, part.homed_of_apart notHome (.inl isNew)]
      rfl
    · rw [kept' later isScope]
      apply part.inside _ isScope
      rw [size_push]
      exact later
  case homes =>
    intro i member
    rw [sizes]
    rcases part.homes i member with isHome | ⟨new, isScope⟩
    · exact .inl isHome
    · rw [size_push] at new
      exact .inr ⟨Nat.le_of_succ_le new, isScope⟩
  case encloses =>
    intro i member
    exact evolves.encloses (part.encloses i member)

end Extends

end ScriptToC
